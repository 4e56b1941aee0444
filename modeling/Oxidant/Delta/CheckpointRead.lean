import Oxidant.Delta.SerialCommits

/-! Reading a Delta log through a checkpoint and reading all of its commits. The two agree on the
files and the version, and on the committed transaction just if the checkpoint's author knew one as
high, as its own, or a later commit carries one. -/
namespace Oxidant.Delta
open Lib List Option Act

variable {ι : Type}

def Store.readWith (store : Store ι) (member : ι) (call : Call) (hint : Option Nat)
    (root : String) (appId : Option String) (reads : Nat) : Except Error LogState :=
  ((LogState.read root appId reads : Method Unit LogState).exec (Store.reply member call) .works ()
    {store with lastCheckpoint := hint}).1.1

def Store.versionsAt (store : Store ι) (appId : Option String) (version : Nat) : List Int :=
  (((store.commits version).getD []).filterMap Action.txn?).filterMap (·.under appId)

/-- Every version that an application stamped up to the checkpoint is reached by what its author knew
of the same application when it wrote it, or by a later commit. -/
def Store.Covers (store : Store ι) (appId : Option String) (checkpointed : Nat) (author : Author) : Prop :=
  ∀ early ≤ checkpointed, ∀ version ∈ store.versionsAt appId early,
    (author.appId = appId ∧ ∃ known ∈ author.committedTxn, version ≤ known) ∨
      ∃ later > checkpointed, ∃ carried ∈ store.versionsAt appId later, version ≤ carried

def Author.versions (author : Author) (appId : Option String) : List Int :=
  author.txn.toList.filterMap (·.under appId)

lemma under_eq_some {txn : DeltaTxn} :
    txn.under appId = some version ↔ appId = some txn.appId ∧ txn.version = version := by
  unfold DeltaTxn.under
  split <;> simp_all [eq_comm]

lemma mem_versions {author : Author} :
    version ∈ author.versions (some appId) ↔ author.appId = some appId ∧ author.committedTxn = some version := by
  obtain ⟨own,known⟩ := author
  cases own <;> cases known <;> simp [Author.versions,Author.txn,under_eq_some]
  exact fun _ => eq_comm

lemma readCommits_exec (sound : Sound store) (member call root appId scan) (state : σ)
    (live : scan.live = serial (store.history.take version)) (trusted : scan.trustworthy)
    (reached : version ≤ store.history.length) (enough : store.history.length < version + reads) :
    (LogState.readCommits root appId reads version scan).exec (Store.reply member call) .works state store =
      ((.ok ⟨store.history.length,some (serial store.history),
        (txnVersions appId (store.history.drop version)).foldl Scan.raiseTxn scan.committedTxn⟩,state),store) := by
  induction reads generalizing version scan with
  | zero => omega
  | succ reads ih =>
    unfold LogState.readCommits
    rw [exec_request_bind]
    simp only [Store.reply,Store.found]
    cases there : store.commits version with
    | none =>
      have out : ¬ version < store.history.length := by
        rw [← sound.versions,there]
        simp
      have last : version = store.history.length := by omega
      subst last
      rw [take_length] at live
      rw [drop_length,← live]
      apply congrArg (fun read => ((Except.ok read,state),store))
      simp only [Scan.state,trusted,if_true]
      rfl
    | some body =>
      obtain ⟨operation,known,_,carries⟩ := sound.operation_of_commit there
      obtain ⟨inside,at_⟩ := List.getElem?_eq_some_iff.mp known
      obtain ⟨executed,kept⟩ := sound.scan_commit appId there live
      have txns : txnVersions appId (store.history.drop version) = operation.txn.toList.filterMap (·.under appId) ++
            txnVersions appId (store.history.drop (version + 1)) := by
        rw [← txnVersions_singleton,← txnVersions_append,drop_eq_getElem_cons inside,at_]
        rfl
      simp only [Option.elim]
      rw [ih _ executed (kept.trans trusted) inside (by omega),Scan.commit_committedTxn,
        carries.txns_eq,txns,foldl_append]

lemma readWith_none (sound : Sound store) (enough : store.history.length < reads) :
    store.readWith member call none root appId reads =
      .ok ⟨store.history.length,some (serial store.history),(txnVersions appId store.history).max?⟩ := by
  have unhinted : Sound {store with lastCheckpoint := none} := sound.withHint nofun
  have read := readCommits_exec unhinted member call root appId {} () rfl rfl (Nat.zero_le _)
    (Nat.lt_add_left 0 enough)
  rw [Scan.foldl_raiseTxn] at read
  exact congrArg (·.1.1) read

lemma readWith_some (sound : Sound store) (there : store.checkpoints checkpointed = some rows)
    (wrote : store.authors checkpointed = some author) (enough : store.history.length < reads) :
    store.readWith member call (some checkpointed) root appId reads =
      .ok ⟨store.history.length,some (serial store.history),
        (author.versions appId ++ txnVersions appId (store.history.drop (checkpointed + 1))).max?⟩ := by
  have hinted : Sound {store with lastCheckpoint := some checkpointed} := by
    apply sound.withHint
    rintro _ ⟨⟩
    rw [there]
    rfl
  obtain ⟨inside,_,wrote',_,_,_,made,_⟩ := sound.checkpoints checkpointed rows there
  cases wrote.symm.trans wrote'
  have found := readCheckpoint_render appId made (sound.serial_written)
  have read := readCommits_exec hinted member call root appId
    ⟨(readCheckpoint appId rows).1,(readCheckpoint appId rows).2,true⟩ ()
    (congrArg Prod.fst found) rfl inside (Nat.lt_add_left _ enough)
  have carried : (txnVersions appId (store.history.drop (checkpointed + 1))).foldl Scan.raiseTxn
      (readCheckpoint appId rows).2 = (author.versions appId ++
        txnVersions appId (store.history.drop (checkpointed + 1))).max? := by
    rw [congrArg Prod.snd found,← foldl_append,Scan.foldl_raiseTxn]
    rfl
  unfold Store.readWith LogState.read
  rw [exec_request_bind]
  simp only [Store.reply,if_true]
  rw [exec_request_bind]
  simp only [Store.reply,Store.found,there,Option.elim]
  apply (congrArg (·.1.1) read).trans
  simp only [carried]

private lemma max?_eq_iff {whole part : List Int} (within : ∀ version ∈ part, version ∈ whole) :
    part.max? = whole.max? ↔ ∀ version ∈ whole, ∃ carried ∈ part, version ≤ carried := by
  constructor
  · intro same version member
    obtain ⟨highest,found⟩ := isSome_iff_exists.mp (isSome_max?_of_mem member)
    have bound := (max?_eq_some_iff.mp found).2 version member
    exact ⟨highest,max?_mem (same.trans found),bound⟩
  · intro covered
    cases found : whole.max? with
    | none =>
      rw [max?_eq_none_iff] at found
      subst found
      rw [max?_eq_none_iff]
      exact eq_nil_iff_forall_not_mem.mpr fun version member => nomatch within version member
    | some highest =>
      obtain ⟨member,bound⟩ := max?_eq_some_iff.mp found
      obtain ⟨carried,there,above⟩ := covered highest member
      have same : carried = highest := Int.le_antisymm (bound carried (within carried there)) above
      subst same
      exact max?_eq_some_iff.mpr ⟨there,fun version known => bound version (within _ known)⟩

section
variable {store : Store ι} (sound : Sound store)
include sound

lemma Sound.mem_versionsAt :
    version ∈ store.versionsAt appId at_ ↔
    ∃ operation, store.history[at_]? = some operation ∧
      version ∈ operation.txn.toList.filterMap (·.under appId) := by
  unfold Store.versionsAt
  cases there : store.commits at_ with
  | none =>
    have out : ¬ at_ < store.history.length := by
      rw [← sound.versions,there]
      nofun
    have missing : store.history[at_]? = none := getElem?_eq_none (Nat.le_of_not_lt out)
    simp [missing]
  | some body =>
    obtain ⟨operation,known,_,carries⟩ := sound.operation_of_commit there
    simp [known,carries.txns_eq]

lemma Sound.mem_txnVersions_drop :
    version ∈ txnVersions appId (store.history.drop start) ↔
    ∃ at_ ≥ start, version ∈ store.versionsAt appId at_ := by
  simp only [sound.mem_versionsAt,txnVersions,mem_filterMap,mem_toList]
  constructor
  · rintro ⟨txn,⟨operation,member,stamped⟩,under⟩
    obtain ⟨at_,known⟩ := mem_iff_getElem?.mp member
    rw [getElem?_drop] at known
    exact ⟨start + at_,Nat.le_add_right _ _,operation,known,txn,stamped,under⟩
  · rintro ⟨at_,past,operation,known,txn,stamped,under⟩
    have same : (store.history.drop start)[at_ - start]? = some operation := by
      rw [getElem?_drop,Nat.add_sub_cancel' past,known]
    exact ⟨txn,⟨operation,mem_of_getElem? same,stamped⟩,under⟩

lemma Sound.mem_txnVersions_history :
    version ∈ txnVersions appId store.history ↔ ∃ at_, version ∈ store.versionsAt appId at_ := by
  have whole := @Sound.mem_txnVersions_drop ι store sound appId 0 version
  simpa using whole

lemma Sound.covers_iff :
    store.Covers appId checkpointed author ↔
    ∀ version ∈ txnVersions appId store.history,
      ∃ carried ∈ author.versions appId ++ txnVersions appId (store.history.drop (checkpointed + 1)),
        version ≤ carried := by
  constructor
  · intro covers version member
    obtain ⟨at_,stamped⟩ := sound.mem_txnVersions_history.mp member
    by_cases early : at_ ≤ checkpointed
    · obtain ⟨rfl,known,mem,above⟩ | ⟨later,past,carried,there,above⟩ := covers at_ early version stamped
      · obtain ⟨_,_,mine⟩ := sound.mem_versionsAt.mp stamped
        obtain ⟨txn,_,under⟩ := mem_filterMap.mp mine
        have own := (under_eq_some.mp under).1
        refine ⟨known,mem_append_left _ ?_,above⟩
        rw [own]
        exact mem_versions.mpr ⟨own,mem⟩
      · exact ⟨carried,mem_append_right _ (sound.mem_txnVersions_drop.mpr ⟨later,past,there⟩),above⟩
    · exact ⟨version,mem_append_right _ (sound.mem_txnVersions_drop.mpr
        ⟨at_,Nat.lt_of_not_le early,stamped⟩),Int.le_refl _⟩
  · intro covered early _ version stamped
    obtain ⟨carried,there,above⟩ :=
      covered version (sound.mem_txnVersions_history.mpr ⟨early,stamped⟩)
    rcases mem_append.mp there with kept | there
    · obtain ⟨txn,_,under⟩ := mem_filterMap.mp kept
      obtain ⟨rfl,_⟩ := under_eq_some.mp under
      obtain ⟨own,known⟩ := mem_versions.mp kept
      exact .inl ⟨own,carried,known,above⟩
    · obtain ⟨later,past,found⟩ := sound.mem_txnVersions_drop.mp there
      exact .inr ⟨later,past,carried,found,above⟩

lemma Sound.carried_committed (made : Checkpoints (store.history.take (checkpointed + 1)) rows author) :
    ∀ version ∈ author.versions appId ++ txnVersions appId (store.history.drop (checkpointed + 1)),
      version ∈ txnVersions appId store.history := by
  intro version member
  rcases mem_append.mp member with kept | later
  · obtain ⟨_,_,_,_,stamped⟩ := made
    obtain ⟨own,known,under⟩ := mem_filterMap.mp kept
    obtain ⟨operation,found,same⟩ := stamped own (mem_toList.mp known)
    exact mem_filterMap.mpr ⟨own,mem_filterMap.mpr ⟨operation,mem_of_mem_take found,same⟩,under⟩
  · obtain ⟨at_,_,found⟩ := sound.mem_txnVersions_drop.mp later
    exact sound.mem_txnVersions_history.mpr ⟨at_,found⟩

end

/-- The transaction in a checkpoint is the one its author knew as its own. A read through the
checkpoint gives the version and the files of a read of all commits, and the same state exactly if
every transaction up to the checkpoint is covered. -/
theorem checkpoint_read_agrees_iff [DecidableEq ι] (root : String) (events : List (Event ι Fault Call))
    (fresh : noTable.Meets (table ι root) (Pool.Requests Store.Fresh) events)
    {checkpointed : Nat} {rows : List CheckpointRow}
    (there : (noTable.run (table ι root) events).world.checkpoints checkpointed = some rows)
    (member : ι) (call : Call) (appId : Option String) (reads : Nat)
    (enough : (noTable.run (table ι root) events).world.history.length < reads) :
    ∃ author through all, (noTable.run (table ι root) events).world.authors checkpointed = some author ∧
      rows.filterMap (·.txn) = author.txn.toList ∧
      (noTable.run (table ι root) events).world.readWith member call (some checkpointed) root appId reads =
        .ok through ∧
      (noTable.run (table ι root) events).world.readWith member call none root appId reads = .ok all ∧
      through.nextVersion = all.nextVersion ∧ through.liveFiles = all.liveFiles ∧
      (through = all ↔ (noTable.run (table ι root) events).world.Covers appId checkpointed author) := by
  have sound := (contract_holds root fresh).inv
  obtain ⟨_,author,wrote,made⟩ := sound.checkpoints checkpointed rows there
  have ⟨_,_,_,rendered,_⟩ := made
  refine ⟨author,_,_,wrote,renderCheckpoint_txns rendered,readWith_some sound there wrote enough,
    readWith_none sound enough,rfl,rfl,?_⟩
  rw [sound.covers_iff,← max?_eq_iff (sound.carried_committed made)]
  simp

/-- One writer commits version 5 of its transactions; another appends after it and checkpoints the
table. -/
def foreignCheckpoint : List (Event (Fin 2) Fault Call) :=
  let first : DeltaWriterConfig := {tableId := "orders",appId := some "b"}
  let second : DeltaWriterConfig :=
    {tableId := "orders",appId := some "a",checkpointInterval := 2}
  [.call 0 (.open (.ok "schema") first 8),.step 0 .works,.step 0 .works,
    .call 0 (.append [orders] "first" (some 5) 8),.step 0 .works,.step 0 .works,
    .call 1 (.open (.ok "schema") second 8),.step 1 .works,.step 1 .works,.step 1 .works,
    .call 1 (.append [orders] "second" (some 1) 8),.step 1 .works,.step 1 .works,
    .step 1 .works,.step 1 .works]

theorem foreign_checkpoint_forgets :
    noTable.Meets (table (Fin 2) "orders") (Pool.Requests Store.Fresh) foreignCheckpoint ∧
    ((noTable.run (table (Fin 2) "orders") foreignCheckpoint).world.checkpoints 1).isSome ∧
    ((noTable.run (table (Fin 2) "orders") foreignCheckpoint).world.readWith 0
        (.open (.ok "schema") {tableId := "orders"} 8) (some 1) "orders" (some "b") 8).map (·.committedTxn) =
      .ok none ∧
    ((noTable.run (table (Fin 2) "orders") foreignCheckpoint).world.readWith 0
        (.open (.ok "schema") {tableId := "orders"} 8) none "orders" (some "b") 8).map (·.committedTxn) =
      .ok (some 5) := by
  decide

theorem own_checkpoint_agrees :
    (noTable.run (table (Fin 2) "orders") foreignCheckpoint).world.authors 1 = some ⟨some "a",some 1⟩ ∧
    (noTable.run (table (Fin 2) "orders") foreignCheckpoint).world.Covers (some "a") 1 ⟨some "a",some 1⟩ ∧
    (noTable.run (table (Fin 2) "orders") foreignCheckpoint).world.readWith 0
      (.open (.ok "schema") {tableId := "orders"} 8) (some 1) "orders" (some "a") 8 =
      (noTable.run (table (Fin 2) "orders") foreignCheckpoint).world.readWith 0
        (.open (.ok "schema") {tableId := "orders"} 8) none "orders" (some "a") 8 := by
  obtain ⟨rows,there⟩ := isSome_iff_exists.mp (show
    ((noTable.run (table (Fin 2) "orders") foreignCheckpoint).world.checkpoints 1).isSome by decide)
  obtain ⟨author,through,all,wrote,_,read,whole,_,_,agree⟩ := checkpoint_read_agrees_iff "orders" foreignCheckpoint
    (by decide) there 0 (.open (.ok "schema") {tableId := "orders"} 8) (some "a") 8 (by decide)
  have mine : (noTable.run (table (Fin 2) "orders") foreignCheckpoint).world.authors 1 = some ⟨some "a",some 1⟩ := by
    decide
  cases wrote.symm.trans mine
  have low : ∀ early ≤ 1, ∀ version ∈ (noTable.run (table (Fin 2) "orders") foreignCheckpoint).world.versionsAt
      (some "a") early, version ≤ 1 := by decide
  have covers : (noTable.run (table (Fin 2) "orders") foreignCheckpoint).world.Covers (some "a") 1 ⟨some "a",some 1⟩ :=
    fun early inside version stamped => .inl ⟨rfl,1,rfl,low early inside version stamped⟩
  exact ⟨mine,covers,by rw [read,whole,agree.mpr covers]⟩

end Oxidant.Delta
