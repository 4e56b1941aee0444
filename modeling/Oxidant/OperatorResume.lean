import Oxidant.DedupRows
import Oxidant.JournalRefinement
import Oxidant.RateReplay

/-! The operators a restarted query runs with, against the batches it has committed. -/
namespace Oxidant.OperatorResume
open Lib Streaming Semantics DedupState StreamingQueryManager DedupRows BatchProtocol JournalRefinement
open Journal hiding resume

def memory (operators : Operators) : WatermarkTracker × Option DedupState :=
  (operators.tracker,operators.dedup)

section Operators
def KeysAt (config : QueryConfig) (resolved : Except Error (List Nat)) (batches : List RecordBatch) : Prop :=
  ∀ first ∈ batches.head?, resolveKeyColumns first config.dedupColumns = resolved

def Keyed (resolved : Except Error (List Nat)) (operators : Operators) : Prop :=
  operators.dedupKeyCols = [] ∨ resolved = .ok operators.dedupKeyCols

private lemma resolveKeys_keyed (first rest) (keyed : Keyed resolved operators)
    (keys : KeysAt config resolved (first::rest)) :
    operators.resolveKeys config (first::rest) = resolved := by
  unfold Operators.resolveKeys
  rcases keyed with none | found
  · rw [none]
    exact keys first rfl
  · cases same : operators.dedupKeyCols with
    | nil => exact keys first rfl
    | cons key more => rw [found,same]

private lemma dropDuplicates_nil (operators : Operators) :
    operators.dropDuplicates config [] =
      (.ok [],{operators with dedup := operators.dedup.map (operators.expire config)}) := by
  obtain ⟨tracker,_ | dedup,keys⟩ := operators
  · rfl
  · cases keys <;> rfl

private lemma dropDuplicates_memory (same : memory left = memory right)
    (keyedLeft : Keyed resolved left) (keyedRight : Keyed resolved right)
    (keys : KeysAt config resolved batches) :
    (left.dropDuplicates config batches).1 = (right.dropDuplicates config batches).1 ∧
      memory (left.dropDuplicates config batches).2 = memory (right.dropDuplicates config batches).2 := by
  obtain ⟨tracker,dedup,leftKeys⟩ := left
  obtain ⟨_,_,rightKeys⟩ := right
  cases same
  cases batches with
  | nil =>
    rw [dropDuplicates_nil,dropDuplicates_nil]
    exact ⟨rfl,rfl⟩
  | cons first rest =>
    have leftResolved := resolveKeys_keyed first rest keyedLeft keys
    have rightResolved := resolveKeys_keyed first rest keyedRight keys
    unfold Operators.dropDuplicates
    rw [leftResolved,rightResolved]
    cases dedup with
    | none => exact ⟨rfl,rfl⟩
    | some dedup =>
      cases resolved with
      | error e => exact ⟨rfl,rfl⟩
      | ok keys =>
        dsimp only
        split <;> exact ⟨rfl,rfl⟩

private lemma dropDuplicates_keyed (keyed : Keyed resolved operators) (keys : KeysAt config resolved batches) :
    Keyed resolved (operators.dropDuplicates config batches).2 := by
  cases batches with
  | nil =>
    rw [dropDuplicates_nil]
    exact keyed
  | cons first rest =>
    have found := resolveKeys_keyed first rest keyed keys
    unfold Operators.dropDuplicates
    rw [found]
    cases operators.dedup with
    | none => exact keyed
    | some dedup =>
      cases resolved with
      | error e => exact keyed
      | ok keys =>
        dsimp only
        split <;> exact .inr rfl

private lemma observe_memory (left right) (same : memory left = memory right) :
    memory (left.observe config batches) = memory (right.observe config batches) := by
  obtain ⟨tracker,dedup,leftKeys⟩ := left
  obtain ⟨_,_,rightKeys⟩ := right
  cases same
  unfold Operators.observe
  split <;> rfl

private lemma observe_keyed (keyed : Keyed resolved operators) :
    Keyed resolved (operators.observe config batches) := by
  unfold Operators.observe
  split <;> exact keyed

lemma apply_memory (same : memory left = memory right)
    (keyedLeft : Keyed resolved left) (keyedRight : Keyed resolved right)
    (keys : KeysAt config resolved batches) :
    (left.apply config batches).1 = (right.apply config batches).1 ∧
      memory (left.apply config batches).2 = memory (right.apply config batches).2 :=
  dropDuplicates_memory (observe_memory left right same) (observe_keyed keyedLeft) (observe_keyed keyedRight) keys

lemma apply_keyed (keyed : Keyed resolved operators) (keys : KeysAt config resolved batches) :
    Keyed resolved (operators.apply config batches).2 :=
  dropDuplicates_keyed (observe_keyed keyed) keys

lemma apply_dedup (operators : Operators) :
    (operators.apply config batches).2.dedup.isSome = operators.dedup.isSome := by
  cases there : operators.dedup with
  | none =>
    unfold Operators.apply Operators.dropDuplicates
    rw [Operators.observe_dedup,there]
    rw [Operators.observe_dedup,there]
  | some dedup =>
    cases resolved : operators.resolveKeys config batches with
    | error e =>
      unfold Operators.apply Operators.dropDuplicates
      rw [Operators.observe_dedup,there,Operators.observe_resolveKeys,resolved]
      rw [Operators.observe_dedup,there]
    | ok keys =>
      rw [Operators.apply_resolved dedup there resolved]
      rfl

end Operators

section Prefix
variable {env : Environment σ χ} (config : QueryConfig) (laws : Replayable env.source env.build)

def advance (operators : Operators) (range : BatchRange) : Operators :=
  if totalRows (laws.records range) = 0 then operators
  else (operators.apply config (handed env config (laws.records range))).2

def committedOperators (ranges : List BatchRange) : Operators :=
  ranges.foldl (advance config laws) (resume config {}).operators

variable {config laws}

@[simp] lemma committedOperators_snoc (ranges) :
    committedOperators config laws (ranges ++ [range]) =
      advance config laws (committedOperators config laws ranges) range := by
  simp [committedOperators]

lemma advance_keyed (keyed : Keyed resolved operators)
    (keys : KeysAt config resolved (handed env config (laws.records range))) :
    Keyed resolved (advance config laws operators range) := by
  unfold advance
  split
  · exact keyed
  · exact apply_keyed keyed keys

lemma committedOperators_keyed (keys : ∀ range, KeysAt config resolved (handed env config (laws.records range)))
    (ranges : List BatchRange) : Keyed resolved (committedOperators config laws ranges) := by
  have all (start : Operators) (keyed : Keyed resolved start) :
      Keyed resolved (ranges.foldl (advance config laws) start) := by
    induction ranges generalizing start with
    | nil => exact keyed
    | cons range ranges ih => exact ih _ (advance_keyed keyed (keys range))
  exact all _ (.inl rfl)

/-- Operators that have passed these batches, whichever processes they passed them in. -/
structure PassedBy (config : QueryConfig) (laws : Replayable env.source env.build)
    (resolved : Except Error (List Nat)) (ranges : List BatchRange) (operators : Operators) :
    Prop where
  memory : memory operators = memory (committedOperators config laws ranges)
  keyed : Keyed resolved operators
  dedup : operators.dedup.isSome = !config.dedupColumns.isEmpty

variable {ranges : List BatchRange}

lemma PassedBy.apply (passed : PassedBy config laws resolved ranges operators)
    (keys : ∀ range, KeysAt config resolved (handed env config (laws.records range)))
    (present : totalRows (laws.records range) ≠ 0) :
    PassedBy config laws resolved (ranges ++ [range])
      (operators.apply config (handed env config (laws.records range))).2 where
  memory := by
    rw [committedOperators_snoc,advance,if_neg present]
    exact (apply_memory passed.memory passed.keyed (committedOperators_keyed keys ranges) (keys range)).2
  keyed := apply_keyed passed.keyed (keys range)
  dedup := (apply_dedup operators).trans passed.dedup

lemma PassedBy.skip (passed : PassedBy config laws resolved ranges operators)
    (empty : totalRows (laws.records range) = 0) :
    PassedBy config laws resolved (ranges ++ [range]) operators :=
  {passed with
    memory := by
      rw [committedOperators_snoc,advance,if_pos empty]
      exact passed.memory }

lemma resume_nextCheckpoint (stateful : operators.dedup.isSome = !config.dedupColumns.isEmpty) :
    memory (resume config (nextCheckpoint config batchId offsets operators pruned record)).operators =
      memory operators := by
  obtain ⟨tracker,dedup,keys⟩ := operators
  unfold memory resume nextCheckpoint
  dsimp only [WatermarkTracker.restore]
  cases none : config.dedupColumns.isEmpty with
  | true =>
    have absent : dedup = Option.none := by simpa [none] using stateful
    simp [absent]
  | false =>
    obtain ⟨seen,present⟩ := Option.isSome_iff_exists.mp (stateful.trans (by simp [none]))
    dsimp only at present
    simp [present]

lemma passed_resume
    (recorded : OperatorResume.memory (resume config record).operators =
        OperatorResume.memory (committedOperators config laws ranges)) :
    PassedBy config laws resolved ranges (resume config record).operators :=
  ⟨recorded,.inl rfl,by unfold resume; cases config.dedupColumns <;> rfl⟩

lemma PassedBy.saved (passed : PassedBy config laws resolved ranges before.operators)
    (saves : Saves config before after) : PassedBy config laws resolved ranges after.saved := by
  obtain ⟨batchId,offsets,pruned,record,rfl⟩ := saves
  exact passed_resume ((resume_nextCheckpoint passed.dedup).trans passed.memory)

lemma PassedBy.pass (passed : PassedBy config laws resolved ranges operators)
    (keys : ∀ range, KeysAt config resolved (handed env config (laws.records range))) :
    PassedBy config laws resolved (ranges ++ [range]) (Journal.pass env config (laws.records range) operators) := by
  unfold Journal.pass
  split
  · next empty => exact passed.skip empty
  · next present => exact passed.apply keys present

section Passing
variable (config : QueryConfig) (laws : Replayable env.source env.build)
  (resolved : Except Error (List Nat)) (first : Nat) (initial : Operators)

/-- The operators in a call that began with `initial`. An attempt that ends without its batch may
leave any others. -/
def Passing (ranges : List BatchRange) (operators : Operators) : Process → Prop
  | .up done .idle | .up done (.polled _) => done = first ∧ operators = initial ∧
    PassedBy config laws resolved (ranges.take done) initial
  | .up done .ready => (done = first ∧ PassedBy config laws resolved (ranges.take done) initial) ∧
    PassedBy config laws resolved (ranges.take (done + 1)) operators
  | .up done .ended => PassedBy config laws resolved (ranges.take done) operators ∨
    done = first ∧ PassedBy config laws resolved (ranges.take done) initial
  | .up done _ => PassedBy config laws resolved (ranges.take done) operators
  | _ => True

structure Running (journal : Journal σ) (carried : Carried) : Prop where
  lawful : Lawful laws journal
  saved : PassedBy config laws resolved (journal.ranges.take journal.recorded) carried.saved
  passing : Passing config laws resolved first initial journal.ranges carried.operators journal.process

end Passing

section Steps
lemma Running.up (running : Running config laws resolved first initial journal carried)
    {process : Process} (up : journal.process = process) :
    Passing config laws resolved first initial journal.ranges carried.operators process :=
  up ▸ running.passing

lemma Running.readied (keys : ∀ range, KeysAt config resolved (handed env config (laws.records range)))
    (running : Running config laws resolved first initial journal carried)
    (up : journal.process = .up done (.polled batches)) :
    Passing config laws resolved first initial journal.ranges (pass env config batches carried.operators)
      (.up done .ready) := by
  obtain ⟨same,operators,passed⟩ := running.up up
  obtain ⟨_,range,there,rfl⟩ := running.lawful.up up
  refine ⟨⟨same,passed⟩,?_⟩
  rw [operators,List.take_add_one,there]
  exact passed.pass keys

lemma Running.abandoned (running : Running config laws resolved first initial journal carried)
    (up : journal.process = .up done stage)
    (carries : Carries env config journal.recorded journal.recorded (.up done stage) (.up done .ended)
        carried carried') :
    PassedBy config laws resolved (journal.ranges.take journal.recorded) carried'.saved ∧
    Passing config laws resolved first initial journal.ranges carried'.operators (.up done .ended) := by
  have saved := running.saved
  have passing := running.up up
  cases stage with
  | idle => cases carries; exact ⟨saved,.inr ⟨passing.1,passing.2.2⟩⟩
  | polled =>
    have same : carried'.saved = carried.saved := carries
    exact ⟨same ▸ saved,.inr ⟨passing.1,passing.2.2⟩⟩
  | ready => cases carries; exact ⟨saved,.inr passing.1⟩
  | committed =>
    obtain ⟨_,⟨rfl,_⟩ | ⟨saves,same⟩⟩ := carries
    · exact ⟨saved,.inl passing⟩
    · refine ⟨same ▸ PassedBy.saved passing saves,.inl ?_⟩
      obtain ⟨_,_,_,_,rfl⟩ := saves
      exact passing
  | saved => cases carries; exact ⟨saved,.inl passing⟩
  | ended => cases carries; exact ⟨saved,passing⟩

lemma Running.step (keys : ∀ range, KeysAt config resolved (handed env config (laws.records range)))
    (step : Step env config journal .running after)
    (carries : Carries env config journal.recorded after.recorded journal.process after.process carried carried')
    (sound : Sound journal) (running : Running config laws resolved first initial journal carried) :
    Running config laws resolved first initial after carried' := by
  have lawful := running.lawful.step step sound
  have saved := running.saved
  cases step with
  | crash =>
    cases (carries_down _ _ _).mp carries
    exact ⟨lawful,saved,trivial⟩
  | abandon up =>
    obtain ⟨saved,passing⟩ := running.abandoned up (up ▸ carries)
    exact ⟨lawful,saved,passing⟩
  | plan up | miss up =>
    rw [up] at carries
    cases carries
    exact ⟨lawful,saved,running.passing⟩
  | record up =>
    rw [up] at carries
    cases carries
    have high := (sound.up _ _ up).2.1
    have planned := sound.planned
    have recorded := sound.recorded
    refine ⟨lawful,?_,?_⟩
    · dsimp only
      rwa [List.take_append_of_le_length (by omega)]
    · obtain ⟨same,operators,passed⟩ := running.up up
      rw [up]
      refine ⟨same,operators,?_⟩
      rwa [List.take_append_of_le_length (by omega)]
  | poll up =>
    have passing := running.up up
    rw [up] at carries
    cases carries
    exact ⟨lawful,saved,passing⟩
  | skip up =>
    have passing := running.readied keys up
    rw [up] at carries
    cases carries
    exact ⟨lawful,saved,passing⟩
  | write up _ _ acknowledged =>
    have passing := running.readied keys up
    rw [up] at carries
    cases acknowledged <;> cases carries
    · exact ⟨lawful,saved,running.up up⟩
    · exact ⟨lawful,saved,passing⟩
  | commit up acknowledged =>
    have passing := running.up up
    rw [up] at carries
    cases acknowledged <;> cases carries
    · exact ⟨lawful,saved,.inr passing.1⟩
    · exact ⟨lawful,saved,passing.2⟩
  | save up acknowledged =>
    have passing := running.up up
    rw [up] at carries
    cases acknowledged with
    | true =>
      have saves : Saves config carried carried' := carries
      refine ⟨lawful,PassedBy.saved passing saves,?_⟩
      obtain ⟨_,_,_,_,rfl⟩ := saves
      exact passing
    | false =>
      obtain ⟨_,⟨rfl,same⟩ | ⟨saves,_⟩⟩ := carries
      · exact ⟨lawful,same ▸ saved,.inl passing⟩
      · refine ⟨lawful,PassedBy.saved passing saves,.inl ?_⟩
        obtain ⟨_,_,_,_,rfl⟩ := saves
        exact passing
  | durable up =>
    have passing := running.up up
    rw [up] at carries
    cases carries
    exact ⟨lawful,saved,.inl passing⟩

/-- A start that finds no batch past the resume record takes up the operators of the record. -/
structure Starting (config : QueryConfig) (laws : Replayable env.source env.build)
    (resolved : Except Error (List Nat)) (first : Nat) (journal : Journal σ) (carried : Carried) :
    Prop where
  lawful : Lawful laws journal
  recorded : journal.recorded = first
  saved : PassedBy config laws resolved (journal.ranges.take first) carried.saved
  last : journal.positions[first]? = none
  up : ∀ done stage, journal.process = .up done stage →
    done = first ∧ stage = .idle ∧ carried.operators = carried.saved

lemma Starting.step (step : Step env config journal .starting after)
    (carries : Carries env config journal.recorded after.recorded journal.process after.process carried carried')
    (sound : Sound journal) (starting : Starting config laws resolved first journal carried) :
    Starting config laws resolved first after carried' := by
  have lawful := starting.lawful.step step sound
  obtain ⟨_,rfl,saved,last,up⟩ := starting
  cases step with
  | crash =>
    cases (carries_down _ _ _).mp carries
    exact ⟨lawful,rfl,saved,last,nofun⟩
  | build down =>
    rw [down] at carries
    cases carries
    exact ⟨lawful,rfl,saved,last,nofun⟩
  | recover _ committed =>
    rw [last] at committed
    cases committed
  | start starting =>
    rw [starting] at carries
    cases carries
    exact ⟨lawful,rfl,saved,last,fun _ _ here => by cases here; exact ⟨rfl,rfl,rfl⟩⟩

end Steps

end Prefix

section Admitted
variable (config : QueryConfig)

def admittedKeys (operators : Operators) (batches : List RecordBatch) : List String :=
  match operators.resolveKeys config batches,(operators.apply config batches).1 with
  | .ok (key::keys),.ok out =>
    (claims config.formatter (key::keys) (Operators.eventTimeCol config batches) out).map Prod.fst
  | _,_ => []

variable {config}

lemma admitted_unseen (there : operators.dedup = some dedup)
    (admitted : key ∈ admittedKeys config operators batches) :
    dedup.seen.contains key = false := by
  unfold admittedKeys at admitted
  split at admitted
  · next first keys out resolved applied =>
    rw [Operators.apply_resolved dedup there resolved] at applied
    exact ((mem_claims_dedupEach applied key).mp admitted).2
  · cases admitted

end Admitted

section Runs
variable (env : Environment σ χ) (config : QueryConfig)

/-- An attempt that changes the operators commits its batch, if the process lives. -/
def Commits : Sys σ → Action χ → Prop
  | ⟨world,some rt⟩,.batch choices =>
    match (Sys.step env config ⟨world,some rt⟩ (.batch choices)).query with
    | some after => after.batchId ≠ rt.batchId ∨ after.operators = rt.operators
    | none => True
  | _,_ => True

/-- A query is started where no committed batch is past the resume record, and a batch prunes below
the record. -/
def Resumable : Sys σ → Action χ → Prop
  | ⟨world,none⟩,.start _ _ => world.disk.commits (world.disk.committed + 1) = none
  | ⟨world,some rt⟩,.batch _ => PruneSafe rt world
  | _,_ => True

variable {env config}

/-- Between calls the resume record has the operators of the batches it covers, and the query those
of the batches behind it. -/
structure Resumed (laws : Replayable env.source env.build) (config : QueryConfig)
    (resolved : Except Error (List Nat)) (sys : Sys σ) (journal : Journal σ) : Prop where
  presents : Presents config sys journal
  lawful : Lawful laws journal
  carried : ∃ carried, Agrees config sys carried ∧
    PassedBy config laws resolved (journal.ranges.take journal.recorded) carried.saved
  passed : ∀ rt, sys.query = some rt →
    PassedBy config laws resolved (journal.ranges.take rt.batchId) rt.operators

variable {laws : Replayable env.source env.build} {journal : Journal σ}

lemma process_of_rest (presents : Presents config sys journal.rest) (up : sys.query = some rt) :
    ∃ stage, journal.process = .up rt.batchId stage := by
  have process := presents.process
  rw [up] at process
  unfold Journal.rest at process
  cases same : journal.process <;> rw [same] at process <;> cases process
  exact ⟨_,rfl⟩

lemma Resumed.starts (reads : env.mayFail .getOffsets = false) (id : StreamingQueryId)
    (choices : List (Choice χ)) (ends : world.disk.commits (world.disk.committed + 1) = none)
    (resumed : Resumed laws config resolved ⟨world,none⟩ journal) :
    ∃ after, Resumed laws config resolved (Sys.step env config ⟨world,none⟩ (.start id choices)) after := by
  obtain ⟨presents,lawful,⟨carried,agrees,saved⟩,_⟩ := resumed
  have last : journal.positions[journal.recorded]? = none := by
    have logged := presents.shows_.commits (journal.recorded + 1) (Nat.lt_succ_self _)
    rw [← presents.shows_.committed,ends] at logged
    rw [← presents.shows_.committed]
    exact logged.symm
  have starting : Starting config laws resolved journal.recorded journal carried :=
    ⟨lawful,rfl,saved,last,fun _ _ here => by cases presents.process.symm.trans here⟩
  obtain ⟨last,carried',⟨presents,_⟩,agrees,_,starting⟩ := @walk_kept _ _ _ _ ⟨world,none⟩ _
    (.start id choices) reads trivial _ presents agrees _ starting
    fun _ _ _ _ step carries sound starting => Starting.step step carries sound starting
  refine ⟨_,presents,starting.lawful.rest,⟨carried',agrees,starting.recorded.symm ▸ starting.saved⟩,fun rt up => ?_⟩
  obtain ⟨stage,process⟩ := process_of_rest presents up
  obtain ⟨number,_,same⟩ := starting.up _ _ process
  rw [agrees.operators rt up,same,number]
  exact starting.saved

lemma Resumed.runs (reads : env.mayFail .getOffsets = false)
    (keys : ∀ range, KeysAt config resolved (handed env config (laws.records range)))
    (commits : Commits env config ⟨world,some rt⟩ (.batch choices)) (prunes : PruneSafe rt world)
    (resumed : Resumed laws config resolved ⟨world,some rt⟩ journal) :
    ∃ after, Resumed laws config resolved (Sys.step env config ⟨world,some rt⟩ (.batch choices)) after := by
  obtain ⟨presents,lawful,⟨carried,agrees,saved⟩,passed⟩ := resumed
  have process : journal.process = .up rt.batchId .idle := presents.process
  have running : Running config laws resolved rt.batchId rt.operators journal carried :=
    ⟨lawful,saved,process ▸ ⟨rfl,(agrees.operators rt rfl).symm,passed rt rfl⟩⟩
  obtain ⟨last,carried',⟨presents,settled⟩,agrees,_,running⟩ := @walk_kept _ _ _ _
    ⟨world,some rt⟩ _ (.batch choices) reads prunes _ presents agrees _ running
    fun _ _ _ _ step carries sound running => Running.step keys step carries sound running
  refine ⟨_,presents,running.lawful.rest,⟨carried',agrees,running.saved⟩,fun after up => ?_⟩
  obtain ⟨stage,process⟩ := process_of_rest presents up
  have passing := running.up process
  have operators := agrees.operators after up
  rcases settled _ _ process with rfl | rfl
  · rw [operators,passing.2.1]
    exact passing.2.2
  · rcases passing with passed | ⟨same,passed⟩
    · rwa [operators]
    · simp only [Commits,up] at commits
      rwa [commits.resolve_left fun moved => moved same]

lemma Resumed.kept (reads : env.mayFail .getOffsets = false)
    (keys : ∀ range, KeysAt config resolved (handed env config (laws.records range)))
    (met : Commits env config sys action ∧ Resumable sys action)
    (resumed : Resumed laws config resolved sys journal) :
    ∃ after, Resumed laws config resolved (sys.step env config action) after := by
  obtain ⟨world,query⟩ := sys
  have ⟨presents,lawful,⟨carried,agrees,saved⟩,passed⟩ := resumed
  cases action with
  | start id choices =>
    cases query with
    | some rt => exact ⟨journal,resumed⟩
    | none => exact resumed.starts reads id choices met.2
  | batch choices =>
    cases query with
    | none => exact ⟨journal,resumed⟩
    | some rt => exact resumed.runs reads keys met.1 met.2
  | stop =>
    refine ⟨journal,presents.stop,lawful,⟨carried,⟨agrees.stored,fun after same => ?_⟩,saved⟩,fun after same => ?_⟩
    all_goals
      obtain ⟨rt,rfl,rfl⟩ := Option.map_eq_some_iff.mp same
    · exact agrees.operators rt rfl
    · exact passed rt rfl
  | crash => exact ⟨_,presents.crash,{lawful with standing := trivial},⟨carried,⟨agrees.stored,nofun⟩,saved⟩,nofun⟩

/-- A running query remembers exactly the batches behind it, and so lets no key through again that
they left unexpired. -/
structure Remembers (config : QueryConfig) (laws : Replayable env.source env.build)
    (rt : QueryRuntime) (world : World σ) : Prop where
  inside : rt.batchId ≤ world.history.length
  memory : memory rt.operators =
    memory (committedOperators config laws (world.history.take rt.batchId))
  unseen : ∀ dedup, (committedOperators config laws (world.history.take rt.batchId)).dedup =
      some dedup →
    ∀ batches, ∀ key ∈ admittedKeys config rt.operators batches, dedup.seen.contains key = false

instance (sys : Sys σ) (action : Action χ) : Decidable (Commits env config sys action) := by
  unfold Commits
  split
  · split <;> infer_instance
  · infer_instance

instance (sys : Sys σ) (action : Action χ) : Decidable (Resumable sys action) := by
  unfold Resumable
  split <;> infer_instance

/-- Crashed anywhere and restarted only where the commit log is not past the resume record, the
query runs with the operators of the committed prefix. -/
theorem restarted_query_remembers_committed (laws : Replayable env.source env.build)
    (reads : env.mayFail .getOffsets = false) (resolved : Except Error (List Nat))
    (keys : ∀ range, KeysAt config resolved (handed env config (laws.records range)))
    (source : σ) (actions : List (Action χ))
    (commits : Sys.Meets env config (Commits env config) (initially source) actions)
    (met : Sys.Meets env config Resumable (initially source) actions) (rt : QueryRuntime)
    (up : ((initially source).run env config actions).query = some rt) :
    Remembers config laws rt ((initially source).run env config actions).world := by
  obtain ⟨journal,resumed⟩ := related_run (fun sys action journal met resumed => Resumed.kept reads keys met resumed)
    (Sys.meets_and commits met) ⟨presents_initially source,lawful_initially source,
      ⟨⟨{},(resume config {}).operators⟩,⟨rfl,nofun⟩,passed_resume rfl⟩,nofun⟩
  have ⟨shows_,sound,process,_⟩ := resumed.presents
  rw [up] at process
  have high := (sound.up _ _ process).2.1
  have inside : rt.batchId ≤ ((initially source).run env config actions).world.history.length := by
    rw [shows_.history,List.length_take,Nat.min_eq_left sound.planned]
    exact high
  have passed := resumed.passed rt up
  have taken : ((initially source).run env config actions).world.history.take rt.batchId =
      journal.ranges.take rt.batchId := by
    rw [shows_.history,List.take_take,Nat.min_eq_left high]
  rw [← taken] at passed
  refine ⟨inside,passed.memory,fun dedup there batches key admitted => ?_⟩
  exact admitted_unseen ((congrArg Prod.snd passed.memory).trans there) admitted

end Runs

def rate : Environment MemoryRateSource (Option Error) := RateReplay.environment ⟨1,5⟩ fun _ => false

def rateLaws : Replayable rate.source rate.build := RateReplay.replayable ⟨1,5⟩

lemma rate_keys (range) :
    KeysAt RateReplay.dedupById (.ok [0]) (handed rate RateReplay.dedupById (rateLaws.records range)) := by
  change KeysAt _ _ (RateReplay.records ⟨1,5⟩ range)
  unfold RateReplay.records
  split
  · exact fun _ none => by cases none
  · intro first there
    cases there
    decide

def saved : List (Action (Option Error)) :=
  [.start ⟨"query","first"⟩ (RateReplay.quiet 7),.batch (RateReplay.quiet 10),.crash,
   .start ⟨"query","second"⟩ (RateReplay.quiet 9)]

theorem saved_query_remembers :
    ∃ rt, ((initially {}).run rate RateReplay.dedupById saved).query = some rt ∧ rt.batchId = 1 ∧
      Remembers RateReplay.dedupById rateLaws rt ((initially {}).run rate RateReplay.dedupById saved).world := by
  cases up : ((initially {}).run rate RateReplay.dedupById saved).query with
  | none => exact absurd up (by decide)
  | some rt =>
    have number : ((initially {}).run rate RateReplay.dedupById saved).query.map (·.batchId) = some 1 := by decide
    rw [up] at number
    exact ⟨rt,rfl,Option.some.inj number,restarted_query_remembers_committed rateLaws rfl _ rate_keys {}
      saved (by decide) (by decide) rt up⟩

/-- A batch whose process dies between the commit entry and the resume record, and another
start. -/
def unsaved : List (Action (Option Error)) :=
  [.start ⟨"query","first"⟩ (RateReplay.quiet 7),.batch (RateReplay.quiet 7),
   .start ⟨"query","second"⟩ (RateReplay.quiet 10)]

theorem unsaved_query_forgets :
    ∃ rt, ((initially {}).run rate RateReplay.dedupById unsaved).query = some rt ∧ rt.batchId = 1 ∧
      ¬Remembers RateReplay.dedupById rateLaws rt ((initially {}).run rate RateReplay.dedupById unsaved).world := by
  cases up : ((initially {}).run rate RateReplay.dedupById unsaved).query with
  | none => exact absurd up (by decide)
  | some rt =>
    have state : ((initially {}).run rate RateReplay.dedupById unsaved).query.map
        (fun rt => (rt.batchId,memory rt.operators)) = some (1,{},some {}) := by decide
    rw [up] at state
    obtain ⟨number,forgot⟩ := Prod.mk.inj (Option.some.inj state)
    refine ⟨rt,rfl,number,fun remembers => ?_⟩
    have kept := remembers.memory
    rw [forgot,number] at kept
    exact absurd kept (by decide)

end Oxidant.OperatorResume
