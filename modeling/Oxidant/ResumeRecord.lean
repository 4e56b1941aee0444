import Oxidant.RateReplay

/-! What becomes of a query's progress when its resume record cannot be read. -/
namespace Oxidant.ResumeRecord
open Lib Streaming CheckpointStore StreamingQueryManager Act Option

structure Progress where
  queryId : String
  committedBatchId : Nat
  sourceOffsets : Option SourceOffsets
  dedupState : Option DedupState
  deriving DecidableEq

def progress (state : CheckpointState) : Progress :=
  ⟨state.queryId,state.committedBatchId,state.sourceOffsets,state.dedupState⟩

inductive Operation where
  | recover
  | init (id : StreamingQueryId)
  | batchEnd (batchId : Nat) (offsets : Option SourceOffsets) (rt : QueryRuntime)

variable (env : Environment σ χ) (config : QueryConfig) (choice : Choice χ)

/-- The progress an operation leaves in the record, and the progress the query goes on with. -/
def outcome : Operation → World σ → Progress × Progress
  | .recover,world => match (recoverFromLog config).exec env.reply choice () world with
    | ((.ok state,_),final) => (progress (final.disk.offsets.getD {}),progress state)
    | ((.error _,_),final) => (progress (final.disk.offsets.getD {}),progress (final.disk.offsets.getD {}))
  | .init id,world =>
    let final := ((initForQuery id).exec env.reply choice () world).2
    (progress (final.disk.offsets.getD {}),progress (final.disk.offsets.getD {}))
  | .batchEnd batchId offsets rt,world =>
    let final := ((saveCheckpoint config batchId offsets).exec env.reply choice rt world).2
    (progress (final.disk.offsets.getD {}),progress (final.disk.offsets.getD {}))

/-- The operation comes to the progress it would have come to with a record it could read. -/
def KeepsProgress (operation : Operation) (world : World σ) : Prop :=
  outcome env.unreadable config choice operation world = outcome env.undisturbed config choice operation world

def position (commits : Nat → Option BatchCommit) (batchId : Nat) : Option SourceOffsets :=
  (commits batchId).bind (·.resumePosition)

/-- The record of the next batch, as the walk of a recovery takes it from the commit log. -/
def adopt (state : CheckpointState) (resumed : SourceOffsets) : CheckpointState :=
  {state with
    committedBatchId := state.committedBatchId + 1
    batchId := state.committedBatchId + 1
    sourceOffsets := some resumed}

def walk (commits : Nat → Option BatchCommit) : Nat → CheckpointState → CheckpointState
  | 0,state => state
  | bound+1,state => match position commits (state.committedBatchId + 1) with
    | none => state
    | some resumed => walk commits bound (adopt state resumed)

def walkStored (commits : Nat → Option BatchCommit) :
    Nat → CheckpointState → Option CheckpointState → Option CheckpointState
  | 0,_,stored => stored
  | bound+1,state,stored => match position commits (state.committedBatchId + 1) with
    | none => stored
    | some resumed => walkStored commits bound (adopt state resumed) (some (adopt state resumed))

def withRecord (world : World σ) (offsets : Option CheckpointState) : World σ :=
  {world with disk := {world.disk with offsets}}

variable {env config choice}

lemma exec_loadCommit (reads : env.mayFail (.getCommit batchId) = false) :
    (loadCommit batchId).exec env.reply choice state world = ((.ok (world.disk.commits batchId),state),world) := by
  unfold loadCommit
  rw [exec_bind]
  simp only [Act.exec,Act.request,Prog.exec,Environment.reply,Environment.faultOf,reads]
  cases world.disk.commits batchId <;> rfl

lemma exec_save (writes : env.mayFail (.putOffsets saved) = false) :
    (save saved).exec env.reply choice state world = ((.ok (),state),withRecord world (some saved)) := by
  unfold save
  rw [exec_bind]
  simp only [Act.exec,Act.request,Prog.exec,Environment.reply,Environment.faultOf,writes]
  rfl

lemma exec_recoverFrom (reads : ∀ id, env.mayFail (.getCommit id) = false)
    (writes : ∀ state, env.mayFail (.putOffsets state) = false)
    (state world) :
    (recoverFrom config bound state).exec env.reply choice () world = ((.ok (walk world.disk.commits bound state),()),
        withRecord world (walkStored world.disk.commits bound state world.disk.offsets)) := by
  induction bound generalizing state world with
  | zero => rfl
  | succ bound ih =>
    unfold recoverFrom walk walkStored position
    rw [exec_bind,exec_mapError,exec_loadCommit (reads _)]
    dsimp only [Except.mapError]
    cases world.disk.commits (state.committedBatchId + 1) with
    | none => rfl
    | some commit =>
      dsimp only [Option.bind]
      cases commit.resumePosition with
      | none => rfl
      | some resumed =>
        rw [exec_bind,exec_mapError,exec_save (writes _)]
        exact ih (adopt state resumed) _

lemma exec_loadOrDefault_undisturbed :
    (loadOrDefault : Method τ ε CheckpointState).exec env.undisturbed.reply choice state world =
      ((.ok (world.disk.offsets.getD {}),state),world) := by
  obtain ⟨⟨_ | _,_,_⟩,_,_,_⟩ := world <;> rfl

lemma exec_loadOrDefault_unreadable (fails : choice.fault.isSome) :
    (loadOrDefault : Method τ ε CheckpointState).exec env.unreadable.reply choice state world =
      ((.ok {},state),world) := by
  obtain ⟨_ | fault,_⟩ := choice
  · cases fails
  · rfl

lemma walkStored_of_stored (state stored) (same : stored.getD {} = state) :
    (walkStored commits bound state stored).getD {} = walk commits bound state := by
  induction bound generalizing state stored with
  | zero => exact same
  | succ bound ih =>
    unfold walkStored walk
    split
    · exact same
    · exact ih _ _ rfl

lemma walk_stays (bound) (none : position commits (state.committedBatchId + 1) = none) :
    walk commits (bound + 1) state = state := by
  unfold walk
  rw [none]

lemma walkStored_stays (bound state stored) (none : position commits (state.committedBatchId + 1) = none) :
    walkStored commits (bound + 1) state stored = stored := by
  unfold walkStored
  rw [none]

lemma walkStored_moved (found : position commits (state.committedBatchId + 1) = some resumed) :
    (walkStored commits (bound + 1) state stored).getD {} = walk commits (bound + 1) state := by
  unfold walkStored walk
  rw [found]
  exact walkStored_of_stored _ _ rfl

lemma exec_recoverFromLog_undisturbed :
    (recoverFromLog config).exec env.undisturbed.reply choice () world =
      ((.ok (walk world.disk.commits maxRecovered (world.disk.offsets.getD {})),()),
        withRecord world
          (walkStored world.disk.commits maxRecovered (world.disk.offsets.getD {}) world.disk.offsets)) := by
  unfold recoverFromLog
  rw [exec_bind,exec_loadOrDefault_undisturbed]
  exact exec_recoverFrom (fun _ => rfl) (fun _ => rfl) _ _

lemma exec_recoverFromLog_unreadable (fails : choice.fault.isSome) :
    (recoverFromLog config).exec env.unreadable.reply choice () world =
      ((.ok (walk world.disk.commits maxRecovered {}),()),
        withRecord world (walkStored world.disk.commits maxRecovered {} world.disk.offsets)) := by
  unfold recoverFromLog
  rw [exec_bind,exec_loadOrDefault_unreadable fails]
  exact exec_recoverFrom (fun _ => rfl) (fun _ => rfl) _ _

section Walk
variable (commits : Nat → Option BatchCommit)

def chain : Nat → Nat → Nat
  | 0,_ => 0
  | bound+1,count =>
    if (position commits (count + 1)).isSome then chain bound (count + 1) + 1 else 0

lemma chain_le (bound count) : chain commits bound count ≤ bound := by
  induction bound generalizing count with
  | zero => exact le_rfl
  | succ bound ih =>
    unfold chain
    split
    · have := ih (count + 1)
      omega
    · omega

lemma chain_present (bound count index) (inside : index < chain commits bound count) :
    (position commits (count + index + 1)).isSome := by
  induction bound generalizing count index with
  | zero => cases inside
  | succ bound ih =>
    unfold chain at inside
    split at inside
    · next here =>
      cases index with
      | zero => exact here
      | succ index =>
        have := ih (count + 1) index (by omega)
        rwa [show count + 1 + index + 1 = count + (index + 1) + 1 by omega] at this
    · cases inside

lemma chain_stop (bound count) (short : chain commits bound count < bound) :
    position commits (count + chain commits bound count + 1) = none := by
  induction bound generalizing count with
  | zero => cases short
  | succ bound ih =>
    unfold chain at short ⊢
    split at short
    · next here =>
      rw [if_pos here]
      have := ih (count + 1) (by omega)
      rwa [show count + 1 + chain commits bound (count + 1) + 1 =
        count + (chain commits bound (count + 1) + 1) + 1 by omega] at this
    · next gone =>
      rw [if_neg gone]
      simpa using gone

lemma walk_progress :
    progress (walk commits bound state) =
      {queryId := state.queryId,
        committedBatchId := state.committedBatchId + chain commits bound state.committedBatchId,
        sourceOffsets := if chain commits bound state.committedBatchId = 0 then state.sourceOffsets
          else position commits (state.committedBatchId + chain commits bound state.committedBatchId),
          dedupState := state.dedupState} := by
  induction bound generalizing state with
  | zero => rfl
  | succ bound ih =>
    unfold walk
    cases found : position commits (state.committedBatchId + 1) with
    | none =>
      simp only [chain,found,isSome_none,Bool.false_eq_true,if_false,if_true]
      rfl
    | some resumed =>
      rw [ih]
      simp only [chain,found,isSome_some,if_true]
      change Progress.mk state.queryId (state.committedBatchId + 1 + chain commits bound (state.committedBatchId + 1))
        (if chain commits bound (state.committedBatchId + 1) = 0 then some resumed else
          position commits (state.committedBatchId + 1 +
            chain commits bound (state.committedBatchId + 1))) state.dedupState = _
      generalize chain commits bound (state.committedBatchId + 1) = steps
      have shift : state.committedBatchId + 1 + steps = state.committedBatchId + (steps + 1) := by omega
      rw [shift,if_neg (Nat.succ_ne_zero steps)]
      split
      · next none => rw [none,Nat.zero_add,found]
      · rfl

/-- The commit log alone leads to where the record leads: every batch of the record has its entry,
the walk is not cut short, and it ends at the record's offsets if the record is its last. -/
structure LogRebuilds (commits : Nat → Option BatchCommit) (state : CheckpointState) :
    Prop where
  present : ∀ id < state.committedBatchId, (position commits (id + 1)).isSome
  bounded : state.committedBatchId = 0 ∨ ∃ id ≤ maxRecovered, position commits (id + 1) = none
  offsets : (position commits (state.committedBatchId + 1)).isSome ∨
    state.sourceOffsets =
      if state.committedBatchId = 0 then none else position commits state.committedBatchId

lemma chain_zero_iff (bound count) : chain commits (bound + 1) count = 0 ↔ position commits (count + 1) = none := by
  unfold chain
  cases position commits (count + 1) <;> simp

lemma chain_eq_iff :
    chain commits maxRecovered 0 = count + chain commits maxRecovered count ↔
    (∀ id < count, (position commits (id + 1)).isSome) ∧
      (count = 0 ∨ ∃ id ≤ maxRecovered, position commits (id + 1) = none) := by
  rcases Nat.eq_zero_or_pos count with zero | some
  · subst zero
    exact ⟨fun _ => ⟨fun _ below => absurd below (Nat.not_lt_zero _),.inl rfl⟩,fun _ => (Nat.zero_add _).symm⟩
  have within := chain_le commits maxRecovered 0
  have here := chain_present commits maxRecovered 0
  have stop := chain_stop commits maxRecovered 0
  have there := chain_present commits maxRecovered count
  have stopThere := chain_stop commits maxRecovered count
  simp only [Nat.zero_add] at here stop
  generalize chain commits maxRecovered 0 = whole at *
  generalize chain commits maxRecovered count = rest at *
  constructor
  · intro same
    refine ⟨fun id below => here id (by omega),?_⟩
    have gone := stopThere (by omega)
    rw [← same] at gone
    exact .inr ⟨whole,within,gone⟩
  · rintro ⟨present,zero | ⟨id,inside,gone⟩⟩
    · omega
    · have apart : ∀ other, (position commits (other + 1)).isSome → other ≠ id := by
        intro other found same
        rw [same,gone] at found
        cases found
      have beyond : count ≤ id := by
        apply Nat.le_of_not_lt
        intro below
        exact apart id (present id below) rfl
      have short : count + rest ≤ id := by
        apply Nat.le_of_not_lt
        intro below
        have found := there (id - count) (by omega)
        rw [show count + (id - count) + 1 = id + 1 by omega] at found
        exact apart id found rfl
      rcases Nat.lt_trichotomy whole (count + rest) with less | same | more
      · have ends := stop (by omega)
        rcases lt_or_ge whole count with below | above
        · have found := present whole below
          rw [ends] at found
          cases found
        · have found := there (whole - count) (by omega)
          rw [show count + (whole - count) + 1 = whole + 1 by omega,ends] at found
          cases found
      · exact same
      · have found := here (count + rest) more
        rw [stopThere (by omega)] at found
        cases found

end Walk

def Harmless : Operation → World σ → Prop
  | .recover,world =>
    let stored := world.disk.offsets.getD {}
    stored.queryId = "" ∧ stored.dedupState = none ∧ LogRebuilds world.disk.commits stored
  | .init id,world =>
    let stored := world.disk.offsets.getD {}
    (stored.queryId = "" ∨ stored.queryId = id.id) ∧ stored.committedBatchId = 0 ∧
      stored.sourceOffsets = none ∧ stored.dedupState = none
  | .batchEnd _ _ _,world => (world.disk.offsets.getD {}).queryId = ""

lemma init_keeps_iff (id) (fails : choice.fault.isSome) :
    KeepsProgress env config choice (.init id) world ↔ Harmless (.init id) world := by
  have blind : ((initForQuery id).exec env.unreadable.reply choice () world).2.disk.offsets =
      some (stampRun id {}) := by
    unfold initForQuery
    rw [exec_bind,exec_loadOrDefault_unreadable fails]
    rfl
  have seen : ((initForQuery id).exec env.undisturbed.reply choice () world).2.disk.offsets =
      some (stampRun id (world.disk.offsets.getD {})) := by
    unfold initForQuery
    rw [exec_bind,exec_loadOrDefault_undisturbed]
    dsimp only
    rfl
  unfold KeepsProgress outcome Harmless
  dsimp only
  rw [blind,seen]
  generalize world.disk.offsets.getD {} = stored
  simp only [getD_some,Prod.mk.injEq,and_self,progress,stampRun,Progress.mk.injEq]
  by_cases blank : stored.queryId = ""
  · simp [blank]
    grind
  · simp [blank]
    grind

private lemma putObject_offsets (same : written.disk.offsets = world.disk.offsets) :
    (Environment.putObject fault world written).2.disk.offsets = world.disk.offsets := by
  rcases fault with _ | ⟨error,_ | _⟩
  · exact same
  · rfl
  · exact same

private lemma exec_pruneFrom_offsets (committedBatchId budget pruned state world) :
    ∃ last final, final.disk.offsets = world.disk.offsets ∧
      (pruneFrom committedBatchId budget pruned : Method τ ε Nat).exec env.reply choice state world =
        ((.ok last,state),final) := by
  induction budget generalizing pruned world with
  | zero => exact ⟨pruned,world,rfl,rfl⟩
  | succ budget ih =>
    unfold pruneFrom
    split
    · have planned : (env.reply choice world (.deletePlanned (pruned + 1))).2.disk.offsets =
          world.disk.offsets := putObject_offsets rfl
      have commits : ∀ middle, (env.reply choice middle
          (.deleteCommit (pruned + 1))).2.disk.offsets = middle.disk.offsets :=
        fun _ => putObject_offsets rfl
      obtain ⟨last,final,same,run⟩ := ih (pruned + 1) _
      exact ⟨last,final,same.trans ((commits _).trans planned),run⟩
    · exact ⟨pruned,world,rfl,rfl⟩

private lemma exec_saveCheckpoint (config batchId offsets rt world loaded)
    (loads : (loadOrDefault : Method QueryRuntime Error CheckpointState).exec env.reply choice rt world =
        ((.ok loaded,rt),world))
    (writes : ∀ state, env.mayFail (.putOffsets state) = false) :
    ∃ pruned, ((saveCheckpoint config batchId offsets).exec env.reply choice rt world).2.disk.offsets =
        some (nextCheckpoint config batchId offsets rt.operators pruned loaded) := by
  obtain ⟨last,final,_,prunes⟩ := exec_pruneFrom_offsets batchId pruneBatch loaded.prunedThrough rt world
  refine ⟨last,?_⟩
  unfold saveCheckpoint pruneLog
  rw [exec_bind,loads]
  dsimp only
  rw [exec_get_bind,exec_bind,prunes]
  dsimp only
  rw [exec_mapError,exec_save (writes _)]
  rfl

lemma batchEnd_keeps_iff (fails : choice.fault.isSome) :
    KeepsProgress env config choice (.batchEnd batchId offsets rt) world ↔
      Harmless (.batchEnd batchId offsets rt) world := by
  obtain ⟨_,blind⟩ := exec_saveCheckpoint config batchId offsets rt world {}
    (exec_loadOrDefault_unreadable fails) (fun _ => rfl)
  obtain ⟨_,seen⟩ := exec_saveCheckpoint config batchId offsets rt world _
    (exec_loadOrDefault_undisturbed) (fun _ => rfl)
  unfold KeepsProgress outcome Harmless
  dsimp only
  rw [blind,seen]
  simp only [getD_some,Prod.mk.injEq,and_self,progress,nextCheckpoint,Progress.mk.injEq,and_true]
  exact eq_comm

lemma walk_default_iff :
    progress (walk commits maxRecovered {}) = progress (walk commits maxRecovered state) ↔
      state.queryId = "" ∧ state.dedupState = none ∧ LogRebuilds commits state := by
  have ends : LogRebuilds commits state ↔
      chain commits maxRecovered 0 =
          state.committedBatchId + chain commits maxRecovered state.committedBatchId ∧
        ((position commits (state.committedBatchId + 1)).isSome ∨ state.sourceOffsets =
          if state.committedBatchId = 0 then none else position commits state.committedBatchId) := by
    rw [chain_eq_iff]
    exact ⟨fun rebuilds => ⟨⟨rebuilds.present,rebuilds.bounded⟩,rebuilds.offsets⟩,
      fun found => ⟨found.1.1,found.1.2,found.2⟩⟩
  have stays := chain_zero_iff commits 63 state.committedBatchId
  change chain commits maxRecovered state.committedBatchId = 0 ↔ _ at stays
  rw [walk_progress,walk_progress,ends,Progress.mk.injEq]
  rw [Nat.zero_add]
  generalize chain commits maxRecovered 0 = whole
  generalize chain commits maxRecovered state.committedBatchId = rest at stays ⊢
  cases found : position commits (state.committedBatchId + 1) with
  | none =>
    rw [found] at stays
    have none : rest = 0 := stays.mpr rfl
    subst none
    simp only [Nat.add_zero,if_true,isSome_none,Bool.false_eq_true,false_or]
    constructor
    · rintro ⟨query,same,offsets,dedup⟩
      subst same
      exact ⟨query.symm,dedup.symm,rfl,offsets.symm⟩
    · rintro ⟨query,dedup,same,offsets⟩
      subst same
      exact ⟨query.symm,rfl,offsets.symm,dedup.symm⟩
  | some resumed =>
    rw [found] at stays
    have some : rest ≠ 0 := fun none => by cases stays.mp none
    simp only [some,if_false,isSome_some,true_or,and_true]
    constructor
    · rintro ⟨query,same,_,dedup⟩
      exact ⟨query.symm,dedup.symm,same⟩
    · rintro ⟨query,dedup,same⟩
      rw [if_neg (by omega),same]
      exact ⟨query.symm,rfl,rfl,dedup.symm⟩

lemma walkStored_default
    (same : progress (walk commits maxRecovered {}) = progress (walk commits maxRecovered (stored.getD {}))) :
    progress ((walkStored commits maxRecovered {} stored).getD {}) =
      progress (walk commits maxRecovered (stored.getD {})) := by
  cases first : position commits 1 with
  | none =>
    have rebuilds := ((walk_default_iff).mp same).2.2
    have fresh : (stored.getD {}).committedBatchId = 0 := by
      apply Nat.eq_zero_of_not_pos
      intro some
      have found := rebuilds.present 0 some
      rw [first] at found
      cases found
    have stays := walk_stays 63 (by rw [fresh]; exact first)
    have kept := walkStored_stays 63 {} stored first
    change progress ((walkStored commits (63 + 1) {} stored).getD {}) =
      progress (walk commits (63 + 1) (stored.getD {}))
    rw [stays,kept]
  | some resumed =>
    have moved : (walkStored commits maxRecovered {} stored).getD {} =
        walk commits maxRecovered {} := walkStored_moved first
    rw [moved]
    exact same

lemma recover_keeps_iff (fails : choice.fault.isSome) :
    KeepsProgress env config choice .recover world ↔ Harmless .recover world := by
  unfold KeepsProgress outcome Harmless
  dsimp only
  rw [exec_recoverFromLog_undisturbed,exec_recoverFromLog_unreadable fails]
  dsimp only [withRecord]
  rw [walkStored_of_stored _ _ rfl,Prod.mk.injEq,← walk_default_iff]
  exact ⟨fun both => both.2,fun same => ⟨walkStored_default same,same⟩⟩

/-- An operation that cannot read the resume record keeps the query's progress exactly when it
rebuilds what there is to lose. -/
theorem unreadable_record_keeps_progress_iff (env : Environment σ χ) (config : QueryConfig)
    (choice : Choice χ) (fails : choice.fault.isSome) (operation : Operation) (world : World σ) :
    KeepsProgress env config choice operation world ↔ Harmless operation world := by
  cases operation with
  | recover => exact recover_keeps_iff fails
  | init id => exact init_keeps_iff id fails
  | batchEnd batchId offsets rt => exact batchEnd_keeps_iff fails

def outage : Choice (Option Error) where
  fault := some ⟨.io "503",false⟩
  input := none

def firstCommit : Nat → Option BatchCommit
  | 1 => some {batchId := 1,numOutputRows := 1,resumePosition := some {source := "rate"}}
  | _ => none

def first : CheckpointState where
  batchId := 1
  committedBatchId := 1
  sourceOffsets := some {source := "rate"}

theorem rebuilt_record_keeps_progress :
    KeepsProgress (RateReplay.environment ⟨1,5⟩ fun _ => true) RateReplay.passThrough outage .recover
      ⟨{offsets := some first,commits := firstCommit},{},{},[]⟩ :=
  (unreadable_record_keeps_progress_iff (RateReplay.environment ⟨1,5⟩ fun _ => true) RateReplay.passThrough outage rfl
    .recover ⟨{offsets := some first,commits := firstCommit},{},{},[]⟩).mpr
    ⟨rfl,rfl,by decide,.inr ⟨1,by decide,rfl⟩,.inr rfl⟩

def seventh : CheckpointState where
  queryId := "query"
  batchId := 7
  committedBatchId := 7

/-- A restart that cannot read the record gives the query another identity and no progress. -/
theorem restart_loses_progress :
    ¬ KeepsProgress (RateReplay.environment ⟨1,5⟩ fun _ => true) RateReplay.passThrough outage
      (.init ⟨"other","run"⟩) ⟨{offsets := some seventh},{},{},[]⟩ := by
  unfold KeepsProgress
  decide

end Oxidant.ResumeRecord
