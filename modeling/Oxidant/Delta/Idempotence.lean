import Oxidant.Delta.SerialCommits
import Oxidant.Lib.Monitor

/-! When a transaction is committed at most once. A call commits at most once whatever it is
answered, so a transaction is repeated only by a call that does not know it to be committed, or by
two calls of the same transaction at once. -/
namespace Oxidant.Delta
open Lib List Act Option

/-- Follows a call that may commit `txn` once: it may try again only after it was told that the
version is taken. -/
def committing (txn : Option DeltaTxn) : Monitor Request Answer Bool where
  allows may
    | .putCommit _ body => may = true ∧ txnOf body = txn
    | _ => True
  next may
    | .putCommit _ _,.error .alreadyExists => may
    | .putCommit _ _,_ => false
    | _,_ => may

section Methods
lemma readCommits_silent (version scan) :
    Act.Silent (committing txn) (LogState.readCommits root appId reads version scan : Method σ LogState) := by
  induction reads generalizing version scan with
  | zero => exact silent_fail
  | succ reads ih =>
    refine (silent_request fun _ => ⟨trivial,fun _ => rfl⟩).bind fun answer => ?_
    split
    · exact ih _ _
    · exact silent_pure
    · exact silent_fail

lemma read_silent : Act.Silent (committing txn) (LogState.read root appId reads : Method σ LogState) := by
  refine (silent_request fun _ => ⟨trivial,fun _ => rfl⟩).bind fun hint => ?_
  split
  · exact readCommits_silent _ _
  · refine (silent_request fun _ => ⟨trivial,fun _ => rfl⟩).bind fun answer => ?_
    split
    · exact readCommits_silent _ _
    · exact readCommits_silent _ _

lemma stored_silent : Act.Silent (committing txn) (stored doing answer : Method σ Unit) := by
  cases answer with
  | ok value => exact silent_pure
  | error e => exact silent_fail

open DeltaTableWriter

lemma writeGroups_silent (index) : Act.Silent (committing txn) (writeGroups filePrefix index groups) := by
  induction groups generalizing index with
  | nil => exact silent_pure
  | cons group groups ih =>
    unfold writeGroups
    split
    · exact ih _
    · refine silent_get.bind fun writer => ?_
      refine (silent_request fun _ => ⟨trivial,fun _ => rfl⟩).bind fun answer => ?_
      exact (stored_silent).bind fun _ => (ih _).bind fun _ => silent_pure

variable (groups : List PartitionGroup) (files : List DeltaAddFile)

lemma writeDataFiles_silent : Act.Silent (committing txn) (writeDataFiles groups filePrefix) :=
  (writeGroups_silent _).bind fun _ => (silent_modify).bind fun _ => silent_pure

lemma maybeCheckpoint_silent : Act.Silent (committing txn) (maybeCheckpoint version) := by
  have written : Act.Silent (committing txn) (writeCheckpoint version) := by
    refine silent_get.bind fun writer => ?_
    split
    · exact silent_pure
    · refine (silent_raise).bind fun rows => ?_
      refine (silent_request fun _ => ⟨trivial,fun _ => rfl⟩).bind fun answer => ?_
      refine (stored_silent).bind fun _ => ?_
      refine (silent_request fun _ => ⟨trivial,fun _ => rfl⟩).bind fun answer => ?_
      exact stored_silent
  refine silent_get.bind fun writer => ?_
  split
  · refine written.attempt.bind fun result => ?_
    split
    · exact silent_modify
    · exact silent_modify
  · exact silent_pure

lemma commitInner_obeys (writer) :
    (commitInner files txn retireLive reads attempts).Obeys (committing txn) (fun _ _ _ => True) writer true := by
  induction attempts generalizing writer with
  | zero => exact trivial
  | succ attempts ih =>
    refine obeys_get_bind (obeys_raise_bind _ ?_ fun _ _ => trivial)
    intro removes _
    refine obeys_raise_bind _ ?_ fun _ _ => trivial
    intro body made
    refine obeys_request_bind _ ⟨rfl,(renderCommitWithRemoves_carries ⟨true,txn,files⟩ made).txnOf_eq⟩ fun answer => ?_
    rcases answer with e | value
    · dsimp only
      split
      · next again =>
        obtain ⟨rfl,_⟩ := again
        refine (read_silent).obeys_bind (fun state after => ?_) fun _ _ => trivial
        exact ih (after.adopt state)
      · exact trivial
    · exact trivial

lemma commit_obeys (live : DeltaTableWriter → Option (List DeltaAddFile)) :
    Act.Obeys (committing txn) (do
      let version ← commitInner files txn retireLive reads commitAttempts
      Act.modify fun known => known.committed version txn (live known)
      maybeCheckpoint version
      return ({version,rows,files,deduplicated := false} : DeltaCommit))
      (fun _ _ _ => True) writer true := by
  refine obeys_bind _ _ (obeys_mono (commitInner_obeys files _) ?_)
  rintro (e | version) after final -
  · exact trivial
  · refine (silent_modify).obeys_bind (fun _ _ => ?_) fun _ _ => trivial
    exact (maybeCheckpoint_silent).obeys_bind (fun _ _ => trivial) fun _ _ => trivial

lemma append_obeys :
    (append groups filePrefix txnVersion reads).Obeys (committing (writer.stamp txnVersion)) (fun _ _ _ => True)
      writer (!writer.isReplay txnVersion) := by
  apply obeys_get_bind
  split
  · exact trivial
  · split
    · exact trivial
    · next unknown =>
      rw [Bool.eq_false_iff.mpr unknown]
      refine (writeDataFiles_silent _).obeys_bind (fun files after => ?_) fun _ _ => trivial
      exact commit_obeys files _

lemma replace_obeys :
    (replace groups filePrefix txnVersion reads).Obeys (committing (writer.stamp txnVersion)) (fun _ _ _ => True)
      writer (!writer.isReplay txnVersion) := by
  apply obeys_get_bind
  split
  · exact trivial
  · next unknown =>
    rw [Bool.eq_false_iff.mpr unknown]
    split
    · exact trivial
    · refine (writeDataFiles_silent _).obeys_bind (fun files after => ?_) fun _ _ => trivial
      exact commit_obeys files _

end Methods

def Call.txn (call : Call) (state : Option DeltaTableWriter) : Option DeltaTxn :=
  state.bind (·.stamp call.txnVersion)

def Call.known (call : Call) (state : Option DeltaTableWriter) : Bool :=
  state.any (·.isReplay call.txnVersion)

lemma opened_obeys (obeys : method.Obeys (committing txn) (fun _ _ _ => True) writer may) :
    (opened do return some (← method)).Obeys (committing txn) (fun _ _ _ => True) (some writer) may := by
  have whole : Act.Obeys (committing txn) (do return some (← method)) (fun _ _ _ => True) writer may := by
    refine obeys_bind _ _ (obeys_mono obeys ?_)
    rintro (e | commit) after final - <;> exact trivial
  exact Prog.obeys_bind _ _ _ _ (Prog.obeys_mono _ _ whole fun _ _ _ => trivial)

lemma body_obeys (call : Call) :
    (call.body root).Obeys (committing (call.txn state)) (fun _ _ _ => True) state (!call.known state) := by
  cases call with
  | «open» schemaString config reads =>
    refine obeys_mono ((((read_silent).bind fun _ => silent_pure).bind fun _ =>
      (silent_modify).bind fun _ => silent_pure) _ _) ?_
    exact fun _ _ _ _ => trivial
  | append groups filePrefix txnVersion reads =>
    cases state with
    | none => exact trivial
    | some writer => exact opened_obeys (append_obeys groups)
  | replace groups filePrefix txnVersion reads =>
    cases state with
    | none => exact trivial
    | some writer => exact opened_obeys (replace_obeys groups)

lemma reply_history (allowed : (committing txn).allows may op) :
    ((Store.reply member call fault store op).2.history = store.history ∧
      ((committing txn).next may op (Store.reply member call fault store op).1 → may)) ∨
    (may ∧ (committing txn).next may op (Store.reply member call fault store op).1 = false ∧
      ∃ operation, operation.txn = txn ∧
        (Store.reply member call fault store op).2.history = store.history ++ [operation]) := by
  cases op with
  | putCommit version body =>
    simp only [Store.reply,Store.putCommit]
    split
    · refine .inl ⟨rfl,fun _ => allowed.1⟩
    · cases fault with
      | fails => exact .inl ⟨rfl,fun _ => allowed.1⟩
      | works => exact .inr ⟨allowed.1,rfl,_,allowed.2,rfl⟩
      | unacknowledged => exact .inr ⟨allowed.1,rfl,_,allowed.2,rfl⟩
  | getLastCheckpoint => exact .inl ⟨rfl,fun same => same⟩
  | getCheckpoint version => exact .inl ⟨rfl,fun same => same⟩
  | getCommit version => exact .inl ⟨rfl,fun same => same⟩
  | putCheckpoint version rows author => cases fault <;> exact .inl ⟨rfl,fun same => same⟩
  | putLastCheckpoint version size => cases fault <;> exact .inl ⟨rfl,fun same => same⟩
  | putData path => cases fault <;> exact .inl ⟨rfl,fun same => same⟩

abbrev Writer := Member Request Answer Call (Option DeltaTableWriter) Error (Option DeltaCommit)

def Writer.txn : Writer → Option DeltaTxn
  | .busy call began _ => call.txn began
  | .idle _ => none

def Writer.idle? : Writer → Option (Option DeltaTableWriter)
  | .idle state => some state
  | .busy _ _ _ => none

def Store.txns (store : Store ι) : List DeltaTxn := store.history.filterMap (·.txn)

/-- A call of a transaction begins only if the writer knows whether it is committed, and no other
call of it is under way. -/
def Unrepeated (pool : Writers ι) : Event ι Fault Call → Prop
  | .call member call => ∀ state ∈ Writer.idle? (pool.members member), ∀ txn ∈ call.txn state,
      (txn ∈ pool.world.txns → call.known state) ∧ ∀ other, Writer.txn (pool.members other) ≠ some txn
  | _ => True

instance {n : Nat} (pool : Writers (Fin n)) : ∀ event, Decidable (Unrepeated pool event)
  | .call member call =>
    inferInstanceAs (Decidable (∀ state ∈ Writer.idle? (pool.members member),
      ∀ txn ∈ call.txn state, (txn ∈ pool.world.txns → call.known state) ∧
        ∀ other, Writer.txn (pool.members other) ≠ some txn))
  | .step _ _ | .crash _ => .isTrue trivial

def MayCommit (txns : List DeltaTxn) (txn : Option DeltaTxn)
    (rest : Prog Request Answer (Except Error (Option DeltaCommit) × Option DeltaTableWriter)) :
    Prop :=
  ∃ may : Bool, rest.Obeys (committing txn) (fun _ _ => True) may ∧ (may → ∀ own ∈ txn, own ∉ txns)

structure Committing (pool : Writers ι) : Prop where
  once : pool.world.txns.Nodup
  may : ∀ member call began rest, pool.members member = .busy call began rest →
    MayCommit pool.world.txns (call.txn began) rest
  apart : ∀ member other txn, Writer.txn (pool.members member) = some txn →
    Writer.txn (pool.members other) = some txn → member = other

lemma MayCommit.reply {next} (once : store.txns.Nodup) (may : MayCommit store.txns txn (.call op next)) (member : ι)
    (fault) :
    (Store.reply member call fault store op).2.txns.Nodup ∧
    (∀ own ∈ (Store.reply member call fault store op).2.txns, own ∈ store.txns ∨ txn = some own) ∧
    MayCommit (Store.reply member call fault store op).2.txns txn
      (next (Store.reply member call fault store op).1) := by
  obtain ⟨may,⟨allowed,later⟩,unrecorded⟩ := may
  obtain ⟨same,still⟩ | ⟨first,ended,operation,stamped,grown⟩ :=
    reply_history allowed
  · have txns : (Store.reply member call fault store op).2.txns = store.txns := by
      unfold Store.txns
      rw [same]
    rw [txns]
    exact ⟨once,fun own known => .inl known,_,later _,fun now => unrecorded (still now)⟩
  · have txns : (Store.reply member call fault store op).2.txns = store.txns ++ txn.toList := by
      unfold Store.txns
      rw [grown,filterMap_append]
      cases txn <;> simp [stamped]
    rw [txns]
    refine ⟨?_,?_,false,ended ▸ later _,nofun⟩
    · refine nodup_append.mpr ⟨once,by cases txn <;> simp,?_⟩
      rintro known there own new rfl
      exact unrecorded first known (mem_toList.mp new) there
    · intro own known
      exact (mem_append.mp known).imp_right fun new => mem_toList.mp new

variable [DecidableEq ι]

lemma Committing.settle {pool : Writers ι} {call : Call} {began : Option DeltaTableWriter}
    (once : pool.world.txns.Nodup)
    (others : ∀ other call began rest, other ≠ member → pool.members other = .busy call began rest →
      MayCommit pool.world.txns (call.txn began) rest)
    (apart : ∀ first second txn, first ≠ member → second ≠ member → Writer.txn (pool.members first) = some txn →
      Writer.txn (pool.members second) = some txn → first = second)
    (may : MayCommit pool.world.txns (call.txn began) rest)
    (alone : ∀ other txn, other ≠ member → call.txn began = some txn → Writer.txn (pool.members other) ≠ some txn) :
    Committing (pool.settle member call began rest) := by
  have own : ∀ txn, Writer.txn (.resting call began rest) = some txn → call.txn began = some txn := by
    intro txn found
    cases rest with
    | done out => cases found
    | call op next => exact found
  refine ⟨?_,?_,?_⟩
  · rw [Pool.settle_world]
    exact once
  · intro other call' began' rest' busy
    rw [Pool.settle_world]
    rw [Pool.settle_members] at busy
    split at busy
    · cases rest with
      | done out => cases busy
      | call op next =>
        cases busy
        exact may
    · next different => exact others other call' began' rest' different busy
  · intro first second txn left right
    rw [Pool.settle_members] at left right
    split at left <;> split at right
    · next same same' => rw [same,same']
    · next different => exact absurd right (alone second txn different (own txn left))
    · next different _ => exact absurd left (alone first txn different (own txn right))
    · next different different' => exact apart first second txn different different' left right

lemma Committing.step (root : String) {pool : Writers ι} (committing : Committing pool)
    (event) (unrepeated : Unrepeated pool event) :
    Committing (pool.step (table ι root) event) := by
  cases event with
  | call member call =>
    simp only [Pool.step]
    cases found : pool.members member with
    | busy _ _ _ => exact committing
    | idle state =>
      have unrepeated := unrepeated state (by rw [found]; rfl)
      refine Committing.settle committing.once (fun other call began rest _ => committing.may other
        call began rest) (fun first second txn _ _ => committing.apart first second txn)
        ⟨_,body_obeys call,?_⟩ ?_
      · intro unknown own same known
        have replayed := (unrepeated own same).1 known
        simp [replayed] at unknown
      · intro other txn _ same
        exact (unrepeated txn same).2 other
  | step member fault =>
    simp only [Pool.step]
    cases found : pool.members member with
    | idle _ => exact committing
    | busy call began rest =>
      cases rest with
      | done out => exact committing
      | call op next =>
        have alone : ∀ other txn, other ≠ member → call.txn began = some txn →
            Writer.txn (pool.members other) ≠ some txn := by
          intro other txn different own same
          exact different (committing.apart other member txn same (by rw [found]; exact own))
        obtain ⟨once,added,rest⟩ :=
          (committing.may member call began _ found).reply committing.once member fault
        refine Committing.settle once ?_ (fun first second txn _ _ => committing.apart first second txn) rest alone
        intro other call' began' rest' different busy
        obtain ⟨may,obeys,unrecorded⟩ := committing.may other call' began' rest' busy
        refine ⟨may,obeys,fun still own same known => ?_⟩
        rcases added own known with before | mine
        · exact unrecorded still own same before
        · exact alone other own different mine (by rw [busy]; exact same)
  | crash member =>
    refine ⟨committing.once,?_,?_⟩
    · intro other call began rest busy
      simp only [Pool.step,Pool.set] at busy
      split at busy
      · cases busy
      · exact committing.may other call began rest busy
    · intro first second txn left right
      simp only [Pool.step,Pool.set] at left right
      split at left
      · cases left
      · split at right
        · cases right
        · exact committing.apart first second txn left right

def txnsOf (body : List Action) : List DeltaTxn := body.filterMap Action.txn?

def addedPaths (body : List Action) : List String := (addsOf body).map (·.path)

structure CommittedOnce (store : Store ι) : Prop where
  txn : ∀ first second body other txn, store.commits first = some body →
    store.commits second = some other → txn ∈ txnsOf body → txn ∈ txnsOf other → first = second
  single : ∀ version body, store.commits version = some body → (txnsOf body).Nodup
  file : ∀ first second body other path, store.commits first = some body →
    store.commits second = some other → path ∈ addedPaths body → path ∈ addedPaths other →
    first = second
  distinct : ∀ version body, store.commits version = some body → (addedPaths body).Nodup

private lemma index_eq_of_pairwise {items : List α} (pairwise : items.Pairwise differ) {first second : Nat}
    (there : items[first]? = some left) (there' : items[second]? = some right)
    (agree : ¬ differ left right) (agree' : ¬ differ right left) : first = second := by
  obtain ⟨inside,rfl⟩ := List.getElem?_eq_some_iff.mp there
  obtain ⟨inside',rfl⟩ := List.getElem?_eq_some_iff.mp there'
  rcases Nat.lt_trichotomy first second with below | same | above
  · exact absurd (pairwise_iff_getElem.mp pairwise _ _ inside inside' below) agree
  · exact same
  · exact absurd (pairwise_iff_getElem.mp pairwise _ _ inside' inside above) agree'

omit [DecidableEq ι] in
lemma Sound.committedOnce (sound : Sound store) (once : store.txns.Nodup) : CommittedOnce store := by
  have read : ∀ {version body}, store.commits version = some body →
      ∃ operation, store.history[version]? = some operation ∧
        txnsOf body = operation.txn.toList ∧ addedPaths body = operation.files.map (·.path) := by
    intro version body there
    obtain ⟨operation,known,_,carries⟩ := sound.operation_of_commit there
    have written := sound.written operation (mem_of_getElem? known)
    exact ⟨operation,known,carries.txns_eq,congrArg _ (carries.addsOf_eq written)⟩
  have txns := pairwise_filterMap.mp once
  have distinct := sound.distinct
  unfold paths at distinct
  rw [map_flatMap] at distinct
  obtain ⟨each,files⟩ := nodup_flatMap.mp distinct
  refine ⟨?_,?_,?_,?_⟩
  · intro first second body other txn there there' member member'
    obtain ⟨left,known,stamped,_⟩ := read there
    obtain ⟨right,known',stamped',_⟩ := read there'
    rw [stamped,mem_toList] at member
    rw [stamped',mem_toList] at member'
    exact index_eq_of_pairwise txns known known' (fun differ => differ txn member txn member' rfl)
      (fun differ => differ txn member' txn member rfl)
  · intro version body there
    obtain ⟨operation,_,stamped,_⟩ := read there
    rw [stamped]
    cases operation.txn <;> simp
  · intro first second body other path there there' member member'
    obtain ⟨left,known,_,added⟩ := read there
    obtain ⟨right,known',_,added'⟩ := read there'
    rw [added] at member
    rw [added'] at member'
    exact index_eq_of_pairwise files known known' (fun differ => differ member member')
      (fun differ => differ member' member)
  · intro version body there
    obtain ⟨operation,known,_,added⟩ := read there
    rw [added]
    exact each operation (mem_of_getElem? known)

/-- No transaction is committed twice and no file added twice, whatever puts go unacknowledged, if a
call of a transaction begins only by a writer that knows it to be committed if it is, with no other
call under way. -/
theorem txns_committed_once (root : String) (events : List (Event ι Fault Call))
    (fresh : noTable.Meets (table ι root) (Pool.Requests Store.Fresh) events)
    (unrepeated : noTable.Meets (table ι root) Unrepeated events) :
    CommittedOnce (noTable.run (table ι root) events).world := by
  have sound := (contract_holds root fresh).inv
  have initially : Committing (noTable : Writers ι) := by
    refine ⟨nodup_nil,?_,?_⟩
    · intro member call began rest busy
      cases busy
    · intro first second txn left
      cases left
  have committing := Pool.run_invariant (table ι root) Unrepeated Committing
    (fun pool event kept allowed => kept.step root event allowed) noTable events unrepeated
    initially
  exact sound.committedOnce committing.once

private def appendConfig : DeltaWriterConfig := {tableId := "orders",appId := some "a"}

/-- A commit of transaction 1 lands unacknowledged; the writer is opened again before the retry. -/
def reopenedRetry : List (Event (Fin 1) Fault Call) :=
  [.call 0 (.open (.ok "schema") appendConfig 8),.step 0 .works,.step 0 .works,
    .call 0 (.append [orders] "first" (some 1) 8),.step 0 .works,.step 0 .unacknowledged,
    .call 0 (.open (.ok "schema") appendConfig 8),.step 0 .works,.step 0 .works,.step 0 .works,
    .call 0 (.append [orders] "second" (some 1) 8)]

theorem reopenedRetry_committed_once :
    (noTable.run (table (Fin 1) "orders") reopenedRetry).world.txns = [⟨"a",1⟩] ∧
    CommittedOnce (noTable.run (table (Fin 1) "orders") reopenedRetry).world :=
  ⟨by decide +kernel,txns_committed_once "orders" reopenedRetry (by decide +kernel) (by decide +kernel)⟩

/-- The writer that got no acknowledgement tries again, takes its own commit for another's and
commits once more. -/
def unacknowledgedRetry : List (Event (Fin 1) Fault Call) :=
  [.call 0 (.open (.ok "schema") appendConfig 8),.step 0 .works,.step 0 .works,
    .call 0 (.append [orders] "first" (some 1) 8),.step 0 .works,.step 0 .unacknowledged,
    .call 0 (.append [orders] "second" (some 1) 8),.step 0 .works,.step 0 .works,
    .step 0 .works,.step 0 .works,.step 0 .works,.step 0 .works]

theorem unacknowledgedRetry_committed_twice :
    noTable.Meets (table (Fin 1) "orders") (Pool.Requests Store.Fresh) unacknowledgedRetry ∧
      ¬ CommittedOnce (noTable.run (table (Fin 1) "orders") unacknowledgedRetry).world := by
  refine ⟨by decide +kernel,fun once => ?_⟩
  have both : ∀ version < 2, ((noTable.run (table (Fin 1) "orders") unacknowledgedRetry).world.commits version).any
        fun body => decide (⟨"a",1⟩ ∈ txnsOf body) := by
    decide +kernel
  obtain ⟨first,there,member⟩ := (any_eq_true _ _).mp (both 0 (by decide))
  obtain ⟨second,there',member'⟩ := (any_eq_true _ _).mp (both 1 (by decide))
  have member := of_decide_eq_true member
  have member' := of_decide_eq_true member'
  exact absurd (once.txn 0 1 first second ⟨"a",1⟩ there there' member member') (by decide)

end Oxidant.Delta
