import Mathlib.Data.List.Nodup
import Oxidant.Delta.Serial

/-! What the writers of a table keep between them: the log carries the operations on the table in
their order, and every writer's picture of it is that of some earlier point. -/
namespace Oxidant.Delta
open List hiding after
open Lib Act

def Checkpoints (history : List Operation) (rows : List CheckpointRow) (author : Author) : Prop :=
  ∃ schemaString tableId partitionColumns,
    renderCheckpoint schemaString (serial history) tableId partitionColumns author.txn = .ok rows ∧
      ∀ stamped, author.txn = some stamped → ∃ operation ∈ history, operation.txn = some stamped

structure Sound (store : Store ι) : Prop where
  versions : ∀ version, (store.commits version).isSome ↔ version < store.history.length
  carries : ∀ version body operation, store.commits version = some body →
    store.history[version]? = some operation →
    Carries (serial (store.history.take version)) operation body
  written : ∀ operation ∈ store.history, ∀ file ∈ operation.files, file.Written
  distinct : (paths store.history).Nodup
  stored : ∀ path ∈ paths store.history, path ∈ store.data.map (·.1)
  named : (store.data.map (·.1)).Nodup
  checkpoints : ∀ version rows, store.checkpoints version = some rows →
    version < store.history.length ∧ ∃ author, store.authors version = some author ∧
      Checkpoints (store.history.take (version + 1)) rows author
  hint : ∀ version, store.lastCheckpoint = some version → (store.checkpoints version).isSome

structure Grows (before after : Store ι) : Prop where
  commits : ∀ version body, before.commits version = some body →
    after.commits version = some body
  history : ∃ more, after.history = before.history ++ more
  data : ∀ entry ∈ before.data, entry ∈ after.data
  checkpoints : ∀ version, (before.checkpoints version).isSome →
    (after.checkpoints version).isSome

namespace Grows

lemma withData (store path) (member : ι) : Grows store (store.withData path member) :=
  ⟨fun _ _ found => found,⟨[],by simp [Store.withData]⟩,fun _ old => mem_append_left _ old,fun _ there => there⟩

lemma withCheckpoint (store : Store ι) (version rows author) :
    Grows store (store.withCheckpoint version rows author) := by
  refine ⟨fun _ _ found => found,⟨[],by simp [Store.withCheckpoint]⟩,fun _ old => old,?_⟩
  intro other there
  simp only [Store.withCheckpoint]
  split
  · rfl
  · exact there

lemma withHint (store : Store ι) (version) : Grows store {store with lastCheckpoint := some version} :=
  ⟨fun _ _ found => found,⟨[],by simp⟩,fun _ old => old,fun _ there => there⟩

lemma refl (store : Store ι) : Grows store store :=
  ⟨fun _ _ found => found,⟨[],by simp⟩,fun _ member => member,fun _ there => there⟩

lemma trans (early : Grows first second) (late : Grows second third) : Grows first third := by
  obtain ⟨more,eq⟩ := early.history
  obtain ⟨still,eq'⟩ := late.history
  refine ⟨fun version body found => late.commits _ _ (early.commits _ _ found),
    ⟨more ++ still,?_⟩,fun entry member => late.data _ (early.data _ member),
    fun version there => late.checkpoints _ (early.checkpoints _ there)⟩
  rw [eq',eq,append_assoc]

end Grows

/-- The files a writer has put stay out of the log until the writer itself commits them. -/
def Rely (member : ι) (before after : Store ι) : Prop :=
  Grows before after ∧ ∀ path, (path,member) ∈ before.data → path ∈ paths after.history → path ∈ paths before.history

def Guar (member : ι) (before after : Store ι) : Prop :=
  Grows before after ∧ ∀ path ∈ paths after.history, path ∈ paths before.history ∨ (path,member) ∈ before.data

namespace Rely

lemma refl (member) (store : Store ι) : Rely member store store :=
  ⟨.refl store,fun _ _ found => found⟩

lemma trans (early : Rely member first second) (late : Rely member second third) : Rely member first third := by
  refine ⟨early.1.trans late.1,fun path own found => early.2 path own ?_⟩
  exact late.2 path (early.1.data _ own) found

lemma of_history (grows : Grows before after) (same : after.history = before.history) : Rely member before after :=
  ⟨grows,fun _ _ found => same ▸ found⟩

end Rely

variable {after before : Store ι}

lemma Guar.of_history (grows : Grows before after) (same : after.history = before.history) :
    Guar member before after :=
  ⟨grows,fun _ found => .inl (same ▸ found)⟩

lemma Guar.rely (apart : member ≠ other) (sound : Sound after) (guar : Guar other before after) :
    Rely member before after := by
  refine ⟨guar.1,fun path own found => (guar.2 path found).resolve_right fun others => apart ?_⟩
  have same := inj_on_of_nodup_map sound.named (guar.1.data _ own) (guar.1.data _ others) rfl
  exact congrArg Prod.snd same

structure Snapshot (appId : Option String) (state : LogState) (history : List Operation) :
    Prop where
  reached : state.nextVersion ≤ history.length
  live : ∀ live, state.liveFiles = some live → live = serial (history.take state.nextVersion)
  txn : ∀ version, state.committedTxn = some version →
    version ∈ txnVersions appId (history.take state.nextVersion)

lemma Snapshot.grow (snapshot : Snapshot appId state before.history) (grows : Grows before after) :
    Snapshot appId state after.history := by
  obtain ⟨more,eq⟩ := grows.history
  have early : after.history.take state.nextVersion = before.history.take state.nextVersion := by
    rw [eq,take_append_of_le_length snapshot.reached]
  refine ⟨?_,early ▸ snapshot.live,early ▸ snapshot.txn⟩
  rw [eq,length_append]
  exact Nat.le_add_right_of_le snapshot.reached

structure Pending (member : ι) (files : List DeltaAddFile) (store : Store ι) : Prop where
  written : ∀ file ∈ files, file.Written
  own : ∀ file ∈ files, (file.path,member) ∈ store.data
  out : ∀ file ∈ files, file.path ∉ paths store.history
  distinct : (files.map (·.path)).Nodup

lemma Pending.grow (pending : Pending member files before) (moved : Rely member before after) :
    Pending member files after where
  written := pending.written
  own file found := moved.1.data _ (pending.own file found)
  out file found committed := pending.out file found (moved.2 _ (pending.own file found) committed)
  distinct := pending.distinct

lemma Pending.cons {member : ι} (written : file.Written) (own : (file.path,member) ∈ start.data)
    (out : file.path ∉ paths start.history) (moved : Rely member start final)
    (pending : Pending member files final)
    (later : ∀ other ∈ files, other.path ∉ start.data.map (·.1)) :
    Pending member (file::files) final where
  written := forall_mem_cons.mpr ⟨written,pending.written⟩
  own := forall_mem_cons.mpr ⟨moved.1.data _ own,pending.own⟩
  out := forall_mem_cons.mpr ⟨fun known => out (moved.2 _ own known),pending.out⟩
  distinct := by
    refine nodup_cons.mpr ⟨fun known => ?_,pending.distinct⟩
    obtain ⟨other,found,same⟩ := mem_map.mp known
    exact later other found (mem_map.mpr ⟨_,own,same.symm⟩)

namespace Sound
variable {store : Store ι}

lemma initially : Sound ({} : Store ι) where
  versions version := by simp
  carries _ _ _ found _ := by cases found
  written _ member := by cases member
  distinct := nodup_nil
  stored _ member := by cases member
  named := nodup_nil
  checkpoints _ _ found := by cases found
  hint _ found := by cases found

section
variable (sound : Sound store)
include sound

lemma withData (member) (fresh : path ∉ store.data.map (·.1)) : Sound (store.withData path member) where
  versions := sound.versions
  carries := sound.carries
  written := sound.written
  distinct := sound.distinct
  stored other found := by
    have old := sound.stored other found
    simp only [Store.withData,map_append,mem_append]
    exact .inl old
  named := by
    simp only [Store.withData,map_append]
    refine nodup_append.mpr ⟨sound.named,by simp,?_⟩
    intro old known other new same
    rw [map_cons,map_nil,mem_singleton] at new
    exact fresh (new.subst (same.subst known))
  checkpoints := sound.checkpoints
  hint := sound.hint

lemma withCheckpoint (inside : version < store.history.length)
    (made : Checkpoints (store.history.take (version + 1)) rows author) :
    Sound (store.withCheckpoint version rows author) where
  versions := sound.versions
  carries := sound.carries
  written := sound.written
  distinct := sound.distinct
  stored := sound.stored
  named := sound.named
  checkpoints other found there := by
    simp only [Store.withCheckpoint] at there ⊢
    split at there
    · next same =>
      cases there
      subst same
      exact ⟨inside,author,if_pos rfl,made⟩
    · next apart =>
      rw [if_neg apart]
      exact sound.checkpoints other found there
  hint other there := by
    simp only [Store.withCheckpoint]
    split
    · rfl
    · exact sound.hint other there

lemma withHint {hint : Option Nat} (there : ∀ version, hint = some version → (store.checkpoints version).isSome) :
    Sound {store with lastCheckpoint := hint} where
  versions := sound.versions
  carries := sound.carries
  written := sound.written
  distinct := sound.distinct
  stored := sound.stored
  named := sound.named
  checkpoints := sound.checkpoints
  hint := there

lemma withCommit (carries : Carries (serial store.history) operation body)
    (pending : Pending member operation.files store) (recorded : Operation.of call body = operation) :
    Sound (store.withCommit call store.history.length body) := by
  have history : (store.withCommit call store.history.length body).history =
      store.history ++ [operation] := congrArg (store.history ++ [·]) recorded
  have new : paths [operation] = operation.files.map (·.path) := by simp [paths]
  exact {
    versions := by
      intro version
      rw [history,length_append,length_singleton]
      simp only [Store.withCommit]
      split
      · simp_all
      · rw [sound.versions]
        omega
    carries := by
      intro version found at_ there known
      rw [history] at known ⊢
      simp only [Store.withCommit] at there
      split at there
      · next last =>
        cases there
        subst last
        simp only [getElem?_concat_length,Option.some.injEq] at known
        subst known
        simpa using carries
      · next early =>
        have inside := (sound.versions version).mp (by rw [there]; rfl)
        rw [getElem?_append_left inside] at known
        rw [take_append_of_le_length (le_of_lt inside)]
        exact sound.carries version found at_ there known
    written := by
      intro other member
      rw [history,mem_append,mem_singleton] at member
      rcases member with old | rfl
      · exact sound.written other old
      · exact pending.written
    distinct := by
      rw [history,paths_append,new]
      refine nodup_append.mpr ⟨sound.distinct,pending.distinct,?_⟩
      intro old known path fresh same
      obtain ⟨file,there,rfl⟩ := mem_map.mp fresh
      exact pending.out file there (same ▸ known)
    stored := by
      intro path found
      rw [history,paths_append,new,mem_append] at found
      rcases found with old | fresh
      · exact sound.stored path old
      · obtain ⟨file,there,rfl⟩ := mem_map.mp fresh
        exact mem_map_of_mem (pending.own file there)
    named := sound.named
    checkpoints := by
      intro version rows there
      obtain ⟨inside,made⟩ := sound.checkpoints version rows there
      rw [history,length_append,take_append_of_le_length inside]
      exact ⟨Nat.lt_add_right _ inside,made⟩
    hint := sound.hint }

lemma operation_of_commit (there : store.commits version = some body) :
    ∃ operation, store.history[version]? = some operation ∧
      store.history.take (version + 1) = store.history.take version ++ [operation] ∧
      Carries (serial (store.history.take version)) operation body := by
  have inside := (sound.versions version).mp (by rw [there]; rfl)
  have known := getElem?_eq_getElem inside
  exact ⟨_,known,take_succ_eq_append_getElem inside,sound.carries _ _ _ there known⟩

private lemma distinct_take (version) : ((serial (store.history.take version)).map (·.path)).Nodup := by
  have whole := sound.distinct
  rw [← take_append_drop version store.history,paths_append] at whole
  exact serial_distinct whole.of_append_left

lemma serial_written : ∀ file ∈ serial (store.history.take version), file.Written := by
  intro file member
  obtain ⟨operation,known,found⟩ := mem_flatMap.mp ((serial_sublist _).subset member)
  exact sound.written operation (mem_of_mem_take known) file found

lemma scan_commit (appId) (there : store.commits version = some body) {scan : Scan}
    (live : scan.live = serial (store.history.take version)) :
    (scan.commit appId body).live = serial (store.history.take (version + 1)) ∧
    (scan.commit appId body).trustworthy = scan.trustworthy := by
  obtain ⟨operation,known,next,carries⟩ := sound.operation_of_commit there
  have distinct := sound.distinct_take version
  have written := sound.written operation (mem_of_getElem? known)
  rw [← live] at carries distinct
  obtain ⟨executed,kept⟩ := Scan.commit_carries appId scan carries distinct written
  rw [executed,live,next,serial_append]
  exact ⟨rfl,kept⟩

end

end Sound

variable (appId : Option String)

lemma txnVersions_append (history more) :
    txnVersions appId (history ++ more) = txnVersions appId history ++ txnVersions appId more := by
  simp [txnVersions]

lemma txnVersions_singleton (operation) :
    txnVersions appId [operation] = operation.txn.toList.filterMap (·.under appId) := by
  cases stamped : operation.txn <;> simp [txnVersions,stamped]

lemma Snapshot.commit {appId : Option String} {scan : Scan} (sound : Sound store)
    (snapshot : Snapshot appId (scan.state version) store.history)
    (there : store.commits version = some body) :
    Snapshot appId ((scan.commit appId body).state (version + 1)) store.history := by
  obtain ⟨operation,known,next,carries⟩ := sound.operation_of_commit there
  refine ⟨(sound.versions version).mp (by rw [there]; rfl),?_,?_⟩
  · intro live found
    simp only [Scan.state] at found ⊢
    split at found
    · next trusted =>
      cases found
      have before := Scan.commit_trustworthy appId scan trusted
      have same := snapshot.live scan.live (by simp [Scan.state,before])
      exact (sound.scan_commit appId there same).1
    · cases found
  · intro number found
    simp only [Scan.state,Scan.commit_committedTxn,carries.txns_eq,Scan.foldl_raiseTxn] at found ⊢
    rw [next,txnVersions_append]
    rcases mem_append.mp (max?_mem found) with old | new
    · exact mem_append_left _ (snapshot.txn number (by simpa [Scan.state] using old))
    · exact mem_append_right _ (txnVersions_singleton appId operation ▸ new)

lemma Snapshot.checkpoint (sound : Sound store) (there : store.checkpoints version = some rows) (appId) :
    Snapshot appId (Scan.state ⟨(readCheckpoint appId rows).1,(readCheckpoint appId rows).2,true⟩ (version + 1))
      store.history := by
  obtain ⟨inside,author,_,schemaString,tableId,partitionColumns,made,stamped⟩ :=
    sound.checkpoints version rows there
  rw [readCheckpoint_render appId made (sound.serial_written)]
  refine ⟨inside,?_,?_⟩
  · rintro live ⟨⟩
    rfl
  · intro number found
    simp only [Scan.state,Scan.foldl_raiseTxn] at found ⊢
    obtain ⟨txn,member,under⟩ := mem_filterMap.mp (max?_mem found)
    obtain ⟨operation,known,same⟩ := stamped txn (Option.mem_toList.mp member)
    exact mem_filterMap.mpr ⟨txn,mem_filterMap.mpr ⟨operation,known,same⟩,under⟩

def DeltaTableWriter.view (writer : DeltaTableWriter) : LogState where
  nextVersion := writer.nextVersion
  liveFiles := writer.liveFiles
  committedTxn := writer.committedTxn

section Methods
variable (member : ι) (call : Call)

def Call.Landed (call : Call) (commit : DeltaCommit) : Prop :=
  commit.deduplicated = false ∧ (call.retires = true ∨ commit.rows ≠ 0)

abbrev discipline : Discipline Request (Store ι) :=
  ⟨Sound,Store.Fresh,Rely member,Guar member⟩

abbrev Upholds {σ α : Type} (method : Method σ α) (post : Except Error α → σ → Store ι → Prop)
    (state : σ) (world : Store ι) : Prop :=
  method.Keeps (Store.reply member call) (discipline member) post state world

variable {member call} {σ : Type} {world : Store ι}

lemma upholds_asking (quiet : ∀ fault store, (Store.reply member call fault store op).2 = store)
    (answered : ∀ now, Rely member world now → Sound now →
        ∀ fault, post (.ok (Store.reply member call fault now op).1) state now) :
    Upholds member call (Act.request op) post state world := by
  intro now moved sound _ fault
  rw [quiet]
  exact ⟨sound,.of_history (.refl now) rfl,answered now moved sound fault⟩

lemma found_cases (fault) (value : Option β) :
    (∃ there, value = some there ∧ Store.found fault value = .ok there) ∨ Store.found fault value = .error .notFound ∨
      Store.found fault value = .error Store.disconnected := by
  cases fault with
  | works => cases value with
    | none => exact .inr (.inl rfl)
    | some there => exact .inl ⟨there,rfl,rfl⟩
  | fails => exact .inr (.inr rfl)
  | unacknowledged => exact .inr (.inr rfl)

def Reads (member : ι) (appId : Option String) (state : σ) (start : Store ι)
    (result : Except Error LogState) (after : σ) (final : Store ι) : Prop :=
  after = state ∧ Rely member start final ∧ ∀ found, result = .ok found → Snapshot appId found final.history

variable {writer : DeltaTableWriter} {operation : Operation} {opened? : Option DeltaTableWriter}

variable (root : String) (groups : List PartitionGroup)

lemma readCommits_upholds {appId : Option String} (moved : Rely member start world)
    (snapshot : Snapshot appId (scan.state version) world.history) :
    Upholds member call (LogState.readCommits root appId reads version scan) (Reads member appId state start)
      state world := by
  induction reads generalizing version scan world with
  | zero => exact ⟨rfl,moved,nofun⟩
  | succ reads ih =>
    refine keeps_bind _ _ (upholds_asking (fun _ _ => rfl) ?_)
    intro now moved' sound fault
    have current := snapshot.grow moved'.1
    rcases found_cases fault (now.commits version) with ⟨body,there,same⟩ | same | same
    · simp only [Store.reply,same]
      exact ih (moved.trans moved') (current.commit sound there)
    · simp only [Store.reply,same]
      refine ⟨rfl,moved.trans moved',fun found eq => ?_⟩
      cases eq
      exact current
    · simp only [Store.reply,same]
      exact ⟨rfl,moved.trans moved',nofun⟩

lemma read_upholds (appId : Option String) :
    Upholds member call (LogState.read root appId reads) (Reads member appId state world) state world := by
  refine keeps_bind _ _ (upholds_asking (fun _ _ => rfl) ?_)
  intro now moved sound fault
  cases hinted : (Store.reply member call fault now .getLastCheckpoint).1 with
  | none =>
    refine readCommits_upholds root moved ⟨Nat.zero_le _,?_,nofun⟩
    rintro live ⟨⟩
    rfl
  | some version =>
    have hint : now.lastCheckpoint = some version := by
      simp only [Store.reply] at hinted
      split at hinted
      · exact hinted
      · cases hinted
    obtain ⟨rows,pointed⟩ := Option.isSome_iff_exists.mp (sound.hint version hint)
    obtain ⟨inside,_⟩ := sound.checkpoints version rows pointed
    refine keeps_bind _ _ (upholds_asking (fun _ _ => rfl) ?_)
    intro later moved' sound' fault'
    rcases found_cases fault' (later.checkpoints version) with ⟨rows,there,same⟩ | failed
    · simp only [Store.reply,same]
      exact readCommits_upholds root (moved.trans moved') (Snapshot.checkpoint sound' there appId)
    · -- without the checkpoint's files the pass goes on, but with no file set
      obtain ⟨more,eq⟩ := moved'.1.history
      have unread : Snapshot appId (Scan.state {trustworthy := false} (version + 1)) later.history := by
        refine ⟨?_,nofun,nofun⟩
        simp only [Scan.state,eq,length_append]
        omega
      rcases failed with same | same
      · simp only [Store.reply,same]
        exact readCommits_upholds root (moved.trans moved') unread
      · simp only [Store.reply,same]
        exact readCommits_upholds root (moved.trans moved') unread

lemma put_sound (sound : Sound now) (kept : Sound update) (grows : Grows now update)
    (history : update.history = now.history) :
    Sound (Store.put fault now update).2 ∧ Guar member now (Store.put fault now update).2 ∧
      Rely member now (Store.put fault now update).2 ∧
      ((Store.put fault now update).1 = .ok () → (Store.put fault now update).2 = update) := by
  cases fault with
  | works => exact ⟨kept,.of_history grows history,.of_history grows history,fun _ => rfl⟩
  | unacknowledged => exact ⟨kept,.of_history grows history,.of_history grows history,fun _ => rfl⟩
  | fails => exact ⟨sound,.of_history (.refl now) rfl,.refl _ _,nofun⟩

lemma stored_upholds (ok : answer = .ok () → post (.ok ()) state world)
    (failed : ∀ error, post (.error error) state world) :
    Upholds member call (stored doing answer) post state world := by
  cases answer with
  | ok value => exact ok rfl
  | error e => exact failed _

open DeltaTableWriter

lemma writeGroups_upholds (index groups) :
    Upholds member call (writeGroups filePrefix index groups) (fun result after final =>
        after = writer ∧ Rely member world final ∧
        ∀ files, result = .ok files → Pending member files final ∧ ∀ file ∈ files, file.path ∉ world.data.map (·.1))
      writer world := by
  induction groups generalizing index world with
  | nil =>
    refine ⟨rfl,.refl _ _,fun files eq => ?_⟩
    cases eq
    exact ⟨⟨by simp,by simp,by simp,by simp⟩,by simp⟩
  | cons group groups ih =>
    unfold writeGroups
    split
    · exact ih _
    · refine keeps_get_bind (keeps_bind _ _ (keeps_request ?_))
      intro now moved sound fresh fault
      obtain ⟨kept,owed,moved',landed⟩ := put_sound sound (sound.withData member fresh) (.withData now _ member) rfl
      refine ⟨kept,owed,keeps_bind _ _ (stored_upholds ?_ ?_)⟩
      · intro ok
        have there := landed ok
        refine keeps_bind _ _ (keeps_mono (ih (index + 1)) ?_)
        rintro (e | files) after final ⟨same,later,pending⟩
        · exact ⟨same,(moved.trans moved').trans later,nofun⟩
        · refine ⟨same,(moved.trans moved').trans later,?_⟩
          rintro _ ⟨⟩
          obtain ⟨pending,new⟩ := pending files rfl
          simp only [Store.reply,there] at later new
          have own : ∀ path, (path,member) ∈ (now.withData path member).data :=
            fun _ => mem_append_right _ (mem_singleton_self _)
          refine ⟨.cons ((⟨group.allocated,rfl⟩)) (own _)
            (fun known => fresh (sound.stored _ known)) later pending new,?_⟩
          intro file found old
          obtain ⟨entry,known,eq⟩ := mem_map.mp old
          rcases mem_cons.mp found with rfl | further
          · exact fresh (mem_map.mpr ⟨entry,moved.1.data _ known,eq⟩)
          · refine new file further (mem_map.mpr ⟨entry,?_,eq⟩)
            exact mem_append_left _ (moved.1.data _ known)
      · intro error
        exact ⟨rfl,moved.trans moved',nofun⟩

lemma writeDataFiles_upholds :
    Upholds member call (writeDataFiles groups filePrefix) (fun result after final =>
        after.config = writer.config ∧ after.view = writer.view ∧ Rely member world final ∧
        ∀ files, result = .ok files → Pending member files final) writer world := by
  refine keeps_bind _ _ (keeps_mono (writeGroups_upholds 0 groups) ?_)
  rintro (e | files) after final ⟨rfl,moved,pending⟩
  · exact ⟨rfl,rfl,moved,nofun⟩
  · refine ⟨rfl,rfl,moved,?_⟩
    rintro _ ⟨⟩
    exact (pending files rfl).1

lemma putCommit_sound (sound : Sound now) (reached : version ≤ now.history.length)
    (carries : Carries (serial (now.history.take version)) operation body)
    (pending : Pending member operation.files now) (kind : operation.retires = call.retires) :
    Sound (Store.putCommit fault now call version body).2 ∧
      Guar member now (Store.putCommit fault now call version body).2 ∧
      ((Store.putCommit fault now call version body).1 = .ok () →
        (Store.putCommit fault now call version body).2.history[version]? = some operation) ∧
      ((Store.putCommit fault now call version body).1 = .error .alreadyExists →
        (Store.putCommit fault now call version body).2 = now) := by
  have still : Guar member now now := .of_history (.refl now) rfl
  unfold Store.putCommit
  split
  · refine ⟨sound,still,?_,fun _ => rfl⟩
    split <;> nofun
  · next free =>
    rw [sound.versions] at free
    have last : version = now.history.length := by omega
    subst last
    rw [take_length] at carries
    have recorded : Operation.of call body = operation := by
      simp only [Operation.of,carries.txnOf_eq,carries.addsOf_eq pending.written,← kind]
    have kept := sound.withCommit carries pending recorded
    have history : (now.withCommit call now.history.length body).history =
        now.history ++ [operation] := congrArg (now.history ++ [·]) recorded
    have owed : Guar member now (now.withCommit call now.history.length body) := by
      refine ⟨⟨fun version found there => ?_,⟨[operation],history⟩,fun _ old => old,fun _ old => old⟩,?_⟩
      · have inside := (sound.versions version).mp (by rw [there]; rfl)
        simp only [Store.withCommit]
        rw [if_neg (by omega),there]
      · intro path found
        rw [history,paths_append,mem_append] at found
        refine found.imp_right fun new => ?_
        obtain ⟨file,member,rfl⟩ := mem_map.mp new
        exact pending.own file (by simpa using member)
    cases fault with
    | works => exact ⟨kept,owed,fun _ => by simp [Store.put,history],nofun⟩
    | fails => exact ⟨sound,still,nofun,fun _ => rfl⟩
    | unacknowledged => exact ⟨kept,owed,nofun,nofun⟩

def Commits (config : DeltaWriterConfig) (operation : Operation) (result : Except Error Nat)
    (after : DeltaTableWriter) (final : Store ι) : Prop :=
  after.config = config ∧ Snapshot config.appId after.view final.history ∧ ∀ version, result = .ok version →
      after.nextVersion = version ∧ final.history[version]? = some operation

lemma retired_removes (snapshot : Snapshot writer.config.appId writer.view history)
    (taken : writer.retired operation.retires = .ok removes) :
    removes = operation.removes (serial (history.take writer.nextVersion)) := by
  unfold retired at taken
  unfold Operation.removes
  cases kind : operation.retires with
  | false =>
    rw [kind] at taken
    cases taken
    rfl
  | true =>
    cases known : writer.liveFiles with
    | none => simp [known,kind] at taken
    | some live =>
      rw [kind,known] at taken
      cases taken
      exact snapshot.live _ known

lemma commitInner_upholds (kind : operation.retires = call.retires)
    (snapshot : Snapshot writer.config.appId writer.view world.history)
    (pending : Pending member operation.files world) :
    Upholds member call (commitInner operation.files operation.txn operation.retires reads attempts)
      (Commits writer.config operation) writer world := by
  induction attempts generalizing writer world with
  | zero => exact ⟨rfl,snapshot,nofun⟩
  | succ attempts ih =>
    refine keeps_get_bind (keeps_raise_bind _ ?_ fun _ _ => ⟨rfl,snapshot,nofun⟩)
    intro removes taken
    refine keeps_raise_bind _ ?_ fun _ _ => ⟨rfl,snapshot,nofun⟩
    intro body made
    refine keeps_bind _ _ (keeps_request ?_)
    intro now moved sound _ fault
    have current := snapshot.grow moved.1
    rw [retired_removes current taken] at made
    obtain ⟨kept,owed,landed,lost⟩ := putCommit_sound sound current.reached
      (renderCommitWithRemoves_carries operation made) (pending.grow moved) kind
    refine ⟨kept,owed,?_⟩
    have later := current.grow owed.1
    cases answered : (Store.reply member call fault now (.putCommit writer.nextVersion body)).1 with
    | ok value =>
      refine ⟨rfl,later,?_⟩
      rintro _ ⟨⟩
      exact ⟨rfl,landed answered⟩
    | error e =>
      dsimp only
      split
      · next again =>
        -- the version was another's, so the put changed nothing
        have same := lost (again.1 ▸ answered)
        refine keeps_bind _ _ (keeps_mono (read_upholds _ _) ?_)
        rintro (e | state) after final ⟨rfl,moved',read⟩
        · exact ⟨rfl,later.grow moved'.1,nofun⟩
        · have adopted := read state rfl
          exact ih adopted ((pending.grow moved).grow (same ▸ moved'))
      · exact ⟨rfl,later,nofun⟩

lemma author_txn_known (snapshot : Snapshot writer.config.appId writer.view history) {txn : DeltaTxn}
    (stamped : writer.author.txn = some txn) :
    ∃ operation ∈ history.take writer.nextVersion, operation.txn = some txn := by
  obtain ⟨id,own,stamped⟩ := Option.bind_eq_some_iff.mp stamped
  obtain ⟨version,committed,rfl⟩ := Option.map_eq_some_iff.mp stamped
  obtain ⟨_,same,found⟩ := mem_txnVersions.mp (snapshot.txn version committed)
  cases own.symm.trans same
  exact found

lemma writeCheckpoint_upholds (snapshot : Snapshot writer.config.appId writer.view world.history)
    (next : writer.nextVersion = version + 1) :
    Upholds member call (writeCheckpoint version) (fun _ after final => after = writer ∧ Rely member world final)
      writer world := by
  apply keeps_get_bind
  split
  · exact ⟨rfl,.refl _ _⟩
  · next live known =>
    refine keeps_raise_bind _ ?_ fun _ _ => ⟨rfl,.refl _ _⟩
    intro rows made
    refine keeps_bind _ _ (keeps_request ?_)
    intro now moved sound _ fault
    have current := snapshot.grow moved.1
    have inside : version < now.history.length := by
      have := current.reached
      simp only [DeltaTableWriter.view] at this
      omega
    have whole : Checkpoints (now.history.take (version + 1)) rows writer.author := by
      rw [current.live live known] at made
      rw [← next]
      exact ⟨_,_,_,made,fun txn stamped => author_txn_known current stamped⟩
    obtain ⟨kept,owed,moved',landed⟩ := put_sound sound (sound.withCheckpoint inside whole)
      (.withCheckpoint now version rows writer.author) rfl
    refine ⟨kept,owed,keeps_bind _ _ (stored_upholds ?_ fun _ => ⟨rfl,moved.trans moved'⟩)⟩
    intro ok
    refine keeps_bind _ _ (keeps_request ?_)
    intro later moved'' sound' _ fault'
    have there : ∀ other, some version = some other → (later.checkpoints other).isSome := by
      rintro _ ⟨⟩
      apply moved''.1.checkpoints version
      simp only [Store.reply]
      rw [landed ok]
      simp [Store.withCheckpoint]
    obtain ⟨kept',owed',hinted,_⟩ := put_sound sound' (sound'.withHint there) (.withHint later version) rfl
    have through := (moved.trans moved').trans (moved''.trans hinted)
    exact ⟨kept',owed',stored_upholds (fun _ => ⟨rfl,through⟩) fun _ => ⟨rfl,through⟩⟩

lemma maybeCheckpoint_upholds (snapshot : Snapshot writer.config.appId writer.view world.history)
    (next : writer.nextVersion = version + 1) :
    Upholds member call (maybeCheckpoint version) (fun result after final => result = .ok () ∧
      after.config.appId = writer.config.appId ∧ after.view = writer.view ∧
      Rely member world final) writer world := by
  apply keeps_get_bind
  split
  · refine keeps_bind _ _ (keeps_attempt ?_)
    apply keeps_mono (writeCheckpoint_upholds snapshot next)
    rintro (e | value) after final ⟨rfl,moved⟩
    · refine ⟨rfl,?_,rfl,moved⟩
      simp only [checkpointFailed]
      split <;> rfl
    · exact ⟨rfl,rfl,rfl,moved⟩
  · exact ⟨rfl,rfl,rfl,.refl _ _⟩

lemma Snapshot.committed {live : Option (List DeltaAddFile)}
    (snapshot : Snapshot writer.config.appId writer.view history) (next : writer.nextVersion = version)
    (landed : history[version]? = some operation)
    (stamped : ∀ txn, operation.txn = some txn → writer.config.appId = some txn.appId)
    (lives : ∀ files, live = some files → files = operation.execute (serial (history.take version))) :
    Snapshot writer.config.appId (writer.committed version operation.txn live).view history := by
  obtain ⟨inside,known⟩ := List.getElem?_eq_some_iff.mp landed
  have taken : history.take (version + 1) = history.take version ++ [operation] := by
    rw [take_succ_eq_append_getElem inside,known]
  refine ⟨inside,?_,?_⟩
  · intro files found
    simp only [DeltaTableWriter.view,DeltaTableWriter.committed] at found ⊢
    rw [taken,serial_append]
    exact lives files found
  · intro number found
    simp only [DeltaTableWriter.view,DeltaTableWriter.committed] at found ⊢
    rw [taken,txnVersions_append,mem_append]
    cases own : operation.txn with
    | none =>
      rw [own] at found
      exact .inl (next ▸ snapshot.txn number found)
    | some txn =>
      rw [own] at found
      cases found
      exact .inr (mem_txnVersions.mpr ⟨_,stamped txn own,operation,mem_singleton_self _,own⟩)

def Finishes (call : Call) (result : Except Error DeltaCommit) (after : DeltaTableWriter) (final : Store ι) : Prop :=
  Snapshot after.config.appId after.view final.history ∧
    ∀ commit, result = .ok commit → call.Landed commit → ∃ operation,
      final.history[commit.version]? = some operation ∧ operation.retires = call.retires ∧
        operation.files = commit.files

lemma commit_upholds (operation : Operation) (kind : operation.retires = call.retires)
    (snapshot : Snapshot writer.config.appId writer.view world.history)
    (pending : Pending member operation.files world)
    (stamped : ∀ txn, operation.txn = some txn → writer.config.appId = some txn.appId)
    (live : DeltaTableWriter → Option (List DeltaAddFile))
    (lives : ∀ known before files, (∀ live, known.liveFiles = some live → live = before) → live known = some files →
        files = operation.execute before) :
    Upholds member call (do
      let version ← commitInner operation.files operation.txn operation.retires reads commitAttempts
      Act.modify fun known => known.committed version operation.txn (live known)
      maybeCheckpoint version
      return {version,rows,files := operation.files,deduplicated := false})
      (Finishes call) writer world := by
  refine keeps_bind _ _ (keeps_mono (commitInner_upholds kind snapshot pending) ?_)
  rintro (e | version) after final ⟨config,snapshot',landed⟩
  · exact ⟨config ▸ snapshot',nofun⟩
  · obtain ⟨next,there⟩ := landed version rfl
    rw [← config] at snapshot' stamped
    have known := snapshot'.committed next there stamped fun files (found : live after = _) =>
      lives after _ files (next ▸ snapshot'.live) found
    refine keeps_modify_bind (keeps_bind _ _ (keeps_mono (maybeCheckpoint_upholds known rfl) ?_))
    rintro result last store ⟨rfl,same,view,moved⟩
    refine ⟨?_,?_⟩
    · rw [view,same]
      exact known.grow moved.1
    · rintro commit ⟨⟩ _
      obtain ⟨more,eq⟩ := moved.1.history
      have inside := (List.getElem?_eq_some_iff.mp there).1
      exact ⟨operation,by rw [eq,getElem?_append_left inside,there],kind,rfl⟩

lemma stamp_own (stamped : writer.stamp txnVersion = some txn) : writer.config.appId = some txn.appId := by
  obtain ⟨version,_,stamped⟩ := Option.bind_eq_some_iff.mp stamped
  obtain ⟨id,own,rfl⟩ := Option.map_eq_some_iff.mp stamped
  exact own

lemma append_upholds (kind : call.retires = false)
    (snapshot : Snapshot writer.config.appId writer.view world.history) :
    Upholds member call (append groups filePrefix txnVersion reads) (Finishes call) writer world := by
  apply keeps_get_bind
  split
  · refine ⟨snapshot,?_⟩
    rintro commit ⟨⟩ ⟨_,retires | rows⟩
    · exact absurd retires (by simp [kind])
    · exact absurd rfl rows
  · split
    · refine ⟨snapshot,?_⟩
      rintro commit ⟨⟩ ⟨fresh,_⟩
      cases fresh
    · refine keeps_bind _ _ (keeps_mono (writeDataFiles_upholds groups) ?_)
      rintro (e | files) after final ⟨config,view,moved,pending⟩
      · exact ⟨config ▸ view ▸ snapshot.grow moved.1,nofun⟩
      · refine commit_upholds ⟨false,writer.stamp txnVersion,files⟩ kind.symm
          (config ▸ view ▸ snapshot.grow moved.1) (pending files rfl) ?_ _ ?_
        · intro txn stamped
          rw [config]
          exact stamp_own stamped
        · intro known before live same found
          obtain ⟨old,there,rfl⟩ := Option.map_eq_some_iff.mp found
          rw [same old there]
          rfl

lemma replace_upholds (kind : call.retires = true)
    (snapshot : Snapshot writer.config.appId writer.view world.history) :
    Upholds member call (replace groups filePrefix txnVersion reads) (Finishes call) writer world := by
  apply keeps_get_bind
  split
  · refine ⟨snapshot,?_⟩
    rintro commit ⟨⟩ ⟨fresh,_⟩
    cases fresh
  · split
    · exact ⟨snapshot,nofun⟩
    · refine keeps_bind _ _ (keeps_mono (writeDataFiles_upholds groups) ?_)
      rintro (e | files) after final ⟨config,view,moved,pending⟩
      · exact ⟨config ▸ view ▸ snapshot.grow moved.1,nofun⟩
      · refine commit_upholds ⟨true,writer.stamp txnVersion,files⟩ kind.symm
          (config ▸ view ▸ snapshot.grow moved.1) (pending files rfl) ?_ (fun _ => some files) ?_
        · intro txn stamped
          rw [config]
          exact stamp_own stamped
        · rintro known before live same ⟨⟩
          rfl

lemma opened_upholds
    (holds : Upholds member call method (fun result after => post result (some after)) writer world) :
    Upholds member call (opened method) post (some writer) world :=
  Prog.keeps_bind _ _ _ _ holds

def Rests (state : Option DeltaTableWriter) (store : Store ι) : Prop :=
  ∀ writer, state = some writer → Snapshot writer.config.appId writer.view store.history

def Gives (call : Call) (result : Except Error (Option DeltaCommit)) (store : Store ι) : Prop :=
  ∀ commit, result = .ok (some commit) → call.Landed commit → ∃ operation,
    store.history[commit.version]? = some operation ∧ operation.retires = call.retires ∧
      operation.files = commit.files

lemma finishes_upholds (rests : Rests opened? world)
    (finishes : ∀ writer, opened? = some writer → Upholds member call method (Finishes call) writer world) :
    Upholds member call (opened do return some (← method))
      (fun result after final => Rests after final ∧ Gives call result final) opened? world := by
  cases opened? with
  | none => exact ⟨nofun,nofun⟩
  | some writer =>
    refine opened_upholds (keeps_bind _ _ (keeps_mono (finishes writer rfl) ?_))
    rintro (e | commit) after final ⟨snapshot,landed⟩
    · refine ⟨?_,nofun⟩
      rintro _ ⟨⟩
      exact snapshot
    · refine ⟨?_,?_⟩
      · rintro _ ⟨⟩
        exact snapshot
      · rintro _ ⟨⟩
        exact landed commit rfl

lemma body_upholds (rests : Rests opened? world) :
    Upholds member call (call.body root) (fun result after final => Rests after final ∧ Gives call result final)
      opened? world := by
  cases call with
  | «open» schemaString config reads =>
    refine keeps_bind _ _ (keeps_bind _ _ (keeps_mono (read_upholds _ _) ?_))
    rintro (e | state) after final ⟨rfl,moved,read⟩
    · exact ⟨fun writer found => (rests writer found).grow moved.1,nofun⟩
    · refine ⟨?_,nofun⟩
      rintro _ ⟨⟩
      exact read state rfl
  | append groups filePrefix txnVersion reads =>
    exact finishes_upholds rests fun writer found => append_upholds groups rfl (rests writer found)
  | replace groups filePrefix txnVersion reads =>
    exact finishes_upholds rests fun writer found => replace_upholds groups rfl (rests writer found)

end Methods

def contract (ι : Type) (root : String) : Contract (table ι root) where
  inv := Sound
  admits := Store.Fresh
  rely := Rely
  guar := Guar
  rest _ := Rests
  gives _ := Gives
  rely_refl := .refl
  rely_trans _ := .trans
  others := Guar.rely
  rest_fresh _ _ _ := nofun
  rest_stable _ state before after rests moved writer found := (rests writer found).grow moved.1
  gives_stable _ call result other before after gives guar commit ok landed := by
    obtain ⟨operation,there,kind,files⟩ := gives commit ok landed
    obtain ⟨more,eq⟩ := guar.1.history
    have inside := (List.getElem?_eq_some_iff.mp there).1
    exact ⟨operation,by rw [eq,getElem?_append_left inside,there],kind,files⟩
  calls member call state world _ rests := body_upholds root rests

lemma contract_holds [DecidableEq ι] (root)
    (fresh : noTable.Meets (table ι root) (Pool.Requests Store.Fresh) events) :
    (contract ι root).Holds (noTable.run (table ι root) events) := by
  refine Contract.Holds.run ⟨Sound.initially,?_,?_⟩ events fresh
  · intro member writer found
    cases found
  · intro entry found
    cases found

end Oxidant.Delta
