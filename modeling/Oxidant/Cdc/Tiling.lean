import Oxidant.Cdc.Calls
import Mathlib.Data.List.Forall2

/-! The stream as batches: a planned range means its events from the plan on, and planned and polled
range by range, the stream comes whole, in commit order and once, however the wire is paced and
wherever it fails. -/
namespace Oxidant.Cdc
open Lib Streaming PostgresCdcSource

/-- A call of whatever outcome, or the start of a new process from a committed position. -/
inductive Happens (publisher : Publisher) (setup : Setup) (state : State) : State → Prop
  | plan (input : List WireChoice) :
    Happens publisher setup state ((publisher.source setup).planBatch input state).2
  | poll (input : List WireChoice) (range : BatchRange) :
    Happens publisher setup state ((publisher.source setup).pollRange input range state).2
  | durable (input : List WireChoice) :
    Happens publisher setup state ((publisher.source setup).markDurable input state).2
  | restart (offsets : SourceOffsets) : Happens publisher setup state
      ((publisher.source setup).restoreOffsets offsets (Publisher.build state))

inductive Reaches (publisher : Publisher) (setup : Setup) (start : State) : State → Prop
  | start : Reaches publisher setup start start
  | next {state after : State} (reached : Reaches publisher setup start state)
      (happens : Happens publisher setup state after) : Reaches publisher setup start after

def State.Tracks (publisher : Publisher) (setup : Setup) (state : State) : Prop :=
  Tracking publisher setup state.self state.server

lemma Tracks.fresh (publisher setup server offsets) :
    State.Tracks publisher setup ⟨({} : PostgresCdcSource).restoreOffsets offsets,server⟩ := by
  unfold State.Tracks restoreOffsets
  split
  · exact ⟨.lost (fun _ _ found => by simp at found) _ (.inl rfl),nofun⟩
  · exact ⟨.lost (fun _ _ found => by simp at found) _ (.inl rfl),nofun⟩

lemma Happens.tracks [Unrenamed publisher] (happens : Happens publisher setup state after)
    (tracks : state.Tracks publisher setup) : after.Tracks publisher setup := by
  have tracking (input : List WireChoice) :
      Tracking publisher setup state.self (Wire.mk input state.server).server := tracks
  cases happens with
  | plan input =>
    obtain ⟨_,kept,_⟩ := call_ensures (planBatch setup) input state
      (planBatch_ensures _ (tracking input) (Nat.lt_succ_self _))
    exact kept
  | poll input range =>
    obtain ⟨_,kept⟩ := call_ensures (fun room => pollRange setup room range) input state
      (pollRange_tracking _ range (tracking input) (Nat.lt_succ_self _))
    exact kept
  | durable input =>
    obtain ⟨_,kept,_⟩ := call_ensures (fun _ => markDurable setup) input state (markDurable_ensures (tracking input))
    exact kept
  | restart offsets => exact Tracks.fresh publisher setup _ offsets

lemma Reaches.tracks [Unrenamed publisher] {start state : State} (reaches : Reaches publisher setup start state)
    (tracks : start.Tracks publisher setup) : state.Tracks publisher setup := by
  induction reaches with
  | start => exact tracks
  | next _ happens ih => exact happens.tracks ih

namespace Sample

/-- The table under its new name `p.old`, which the source does not replicate. -/
def oldShape : Announcement where
  walStart := 0
  walEnd := 0
  data := [82] ++ bigEndian 4 42 ++ [112,0,111,108,100,0,100] ++ bigEndian 2 1 ++ [1,105,0] ++
    bigEndian 4 20 ++ bigEndian 4 (2^32 - 1)
  message := .relation {table with name := "old"}
  decodes := by decide +kernel
  relation := {table with name := "old"}
  announces := rfl

def renamed : Publisher where
  log := [twoInserts,{oneInsert with
    changes := [{insertAt 25 with shapes := [oldShape],described := by decide,distinct := by decide}]
    written := by decide
    sent := by decide}]
  ordered := by decide

end Sample

/-- A source under a driver that plans, holds the range and polls it until that succeeds or it plans
anew. -/
structure Drive (σ : Type) where
  state : σ
  pending : Option BatchRange := none
  batches : List (BatchRange × List RecordBatch) := []

namespace Drive
variable (source : Source σ χ)

inductive Call (χ : Type) where
  | plan (input : χ)
  | poll (input : χ)

def step (drive : Drive σ) : Call χ → Drive σ
  | .plan input => match source.planBatch input drive.state with
    | (.error _,state) => {drive with state,pending := none}
    | (.ok range,state) => {drive with state,pending := if range.isEmpty then none else some range}
  | .poll input => match drive.pending with
    | none => drive
    | some range => match source.pollRange input range drive.state with
      | (.error _,state) => {drive with state}
      | (.ok batches,state) => {state,pending := none,batches := drive.batches ++ [(range,batches)]}

def run (start : σ) (calls : List (Call χ)) : Drive σ := calls.foldl (step source) {state := start}

variable {source} {drive : Drive σ} {state : σ}

lemma step_plan :
    (drive.step source (.plan input)).state = (source.planBatch input drive.state).2 ∧
    (drive.step source (.plan input)).batches = drive.batches ∧
    ∀ range, (drive.step source (.plan input)).pending = some range →
      (source.planBatch input drive.state).1 = .ok range ∧ range.isEmpty = false := by
  unfold step
  dsimp only
  rcases source.planBatch input drive.state with ⟨e | range,state⟩
  · exact ⟨rfl,rfl,nofun⟩
  · refine ⟨rfl,rfl,fun found there => ?_⟩
    dsimp only at there
    split at there
    · cases there
    · next some =>
      cases there
      exact ⟨rfl,by simpa using some⟩

lemma step_poll_error (held : drive.pending = some range)
    (answer : source.pollRange input range drive.state = (.error error,state)) :
    drive.step source (.poll input) = {drive with state} := by
  simp only [step,held,answer]

lemma step_poll_ok {batches : List RecordBatch} (held : drive.pending = some range)
    (answer : source.pollRange input range drive.state = (.ok batches,state)) :
    drive.step source (.poll input) = {state,pending := none,batches := drive.batches ++ [(range,batches)]} := by
  simp only [step,held,answer]

lemma step_poll_none (held : drive.pending = none) : drive.step source (.poll input) = drive := by
  simp only [step,held]

end Drive

/-- Ranges that follow one another from `first` to `last`, each to a commit, with nothing for the
source between them. -/
def Follow (publisher : Publisher) (setup : Setup) : Nat → List (Nat × Nat) → Nat → Prop
  | first,[],last => first ≤ last ∧ publisher.eventsIn setup first last = []
  | first,(start,stop)::rest,last => first ≤ start ∧ publisher.eventsIn setup first start = [] ∧
      Recorded publisher setup start stop ∧ Follow publisher setup stop rest last

namespace Follow
section
variable (follow : Follow publisher setup first spans last)
include follow

lemma le : first ≤ last := by
  induction spans generalizing first with
  | nil => exact follow.1
  | cons span rest ih =>
    have := follow.2.2.1.lt
    have := follow.1
    have := ih follow.2.2.2
    omega

lemma advance (lower : last ≤ next) (silent : publisher.eventsIn setup last next = []) :
    Follow publisher setup first spans next := by
  induction spans generalizing first with
  | nil =>
    refine ⟨le_trans follow.1 lower,?_⟩
    rw [← Publisher.eventsIn_append follow.1 lower,silent,List.append_nil]
    exact follow.2
  | cons span rest ih => exact ⟨follow.1,follow.2.1,follow.2.2.1,ih follow.2.2.2⟩

lemma snoc (recorded : Recorded publisher setup last next) :
    Follow publisher setup first (spans ++ [(last,next)]) next := by
  induction spans generalizing first with
  | nil => exact ⟨follow.1,follow.2,recorded,le_rfl,Publisher.eventsIn_self⟩
  | cons span rest ih => exact ⟨follow.1,follow.2.1,follow.2.2.1,ih follow.2.2.2⟩

lemma events :
    (spans.flatMap fun span => publisher.eventsIn setup span.1 span.2) = publisher.eventsIn setup first last := by
  induction spans generalizing first with
  | nil => exact follow.2.symm
  | cons span rest ih =>
    obtain ⟨lower,silent,recorded,follow⟩ := follow
    have below := le_of_lt recorded.lt
    have upper := follow.le
    rw [List.flatMap_cons,ih follow,Publisher.eventsIn_append below upper,
      ← Publisher.eventsIn_append lower (le_trans below upper),silent,List.nil_append]

end

end Follow

def Streaming (setup : Setup) (source : PostgresCdcSource) : Prop :=
  setup.tables.length ≤ source.snapshotDone ∧ (source.opened = true ∨ setup.tables ≠ [])

lemma Streaming.steady (streaming : Streaming setup self)
    (enters : Enters setup self wire middle between) : Steady self wire middle between := by
  rcases enters with ⟨steady,_⟩ | reopened
  · exact steady
  · exfalso
    rcases streaming.2 with opened | some
    · have := reopened.closed
      rw [opened] at this
      cases this
    · have := reopened.incomplete.resolve_left some
      have := streaming.1
      omega

lemma Streaming.kept (streaming : Streaming setup self) (snapshotDone : after.snapshotDone = self.snapshotDone)
    (opened : self.opened = true → after.opened = true) : Streaming setup after :=
  ⟨snapshotDone ▸ streaming.1,streaming.2.imp opened id⟩

def Made (publisher : Publisher) (setup : Setup) (span : Nat × Nat) (made : BatchRange × List RecordBatch) : Prop :=
  made.1 = lsnRange span.1 span.2 ∧ setup.buildBatches (publisher.eventsIn setup span.1 span.2) = .ok made.2

/-- The driver's batches follow one another up to the position, and so does the range it holds. -/
structure Tiled (publisher : Publisher) (setup : Setup) (first : Nat)
    (drive : Drive State) : Prop where
  tracks : drive.state.Tracks publisher setup
  streaming : Streaming setup drive.state.self
  spans : ∃ spans, Follow publisher setup first spans drive.state.self.position ∧
    List.Forall₂ (Made publisher setup) spans drive.batches
  pending : ∀ range, drive.pending = some range → ∃ last,
    range = lsnRange drive.state.self.position last ∧
      Recorded publisher setup drive.state.self.position last

lemma plan_advances [Unrenamed publisher] (tracks : state.Tracks publisher setup)
    (streaming : Streaming setup state.self) :
    let after := ((publisher.source setup).planBatch input state).2
    state.self.position ≤ after.self.position ∧
    publisher.eventsIn setup state.self.position after.self.position = [] ∧
    (after.self.position = state.self.position ∨
      Cut publisher after.server after.self.position) ∧
    Streaming setup after.self ∧
    ∀ range, ((publisher.source setup).planBatch input state).1 = .ok range →
      range.isEmpty = false → ∃ last, range = lsnRange after.self.position last ∧
        Recorded publisher setup after.self.position last := by
  have planning : Tracking publisher setup state.self (Wire.mk input state.server).server := tracks
  obtain ⟨_,_,middle,between,enters,advance,_,returned⟩ := call_ensures (planBatch setup) input state
    (planBatch_ensures _ planning (Nat.lt_succ_self _))
  have steady := streaming.steady enters
  have same := steady.position
  have streaming := streaming.kept (steady.snapshotDone) steady.opened
  refine ⟨same ▸ advance.lower,same ▸ advance.silent,same ▸ advance.cut,
    streaming.kept advance.snapshotDone advance.opened,?_⟩
  intro range done some
  rcases (returned range done).2 with rfl | ⟨kept,⟨more,_⟩ | ⟨_,last,rfl,recorded,_⟩⟩
  · cases some
  · have := streaming.1
    omega
  · refine ⟨last,?_⟩
    change _ = lsnRange (publisher.call setup _ input state).2.self.position last ∧
      Recorded publisher setup (publisher.call setup _ input state).2.self.position last
    rw [kept]
    exact ⟨rfl,recorded⟩

lemma poll_recorded [Unrenamed publisher] (tracks : state.Tracks publisher setup)
    (streaming : Streaming setup state.self) (recorded : Recorded publisher setup «from» last)
    (input) :
    let after := ((publisher.source setup).pollRange input (lsnRange «from» last) state).2
    Streaming setup after.self ∧ match ((publisher.source setup).pollRange input (lsnRange «from» last) state).1 with
      | .error _ => after.self.position = state.self.position
      | .ok batches => after.self.position = last ∧
          setup.buildBatches (publisher.eventsIn setup «from» last) = .ok batches := by
  have polling : Tracking publisher setup state.self (Wire.mk input state.server).server := tracks
  obtain ⟨_,_,middle,between,read,enters,read_,outcome⟩ := call_ensures
    (fun room => pollRange setup room (lsnRange «from» last)) input state
    (pollRange_recorded _ recorded polling (Nat.lt_succ_self _))
  have steady := streaming.steady enters
  have streaming := streaming.kept steady.snapshotDone steady.opened
  obtain ⟨position,streaming⟩ : read.position = middle.position ∧ Streaming setup read := by
    rcases read_ with kept | dropped
    · exact ⟨kept.position,streaming.kept kept.snapshotDone kept.opened⟩
    · exact ⟨dropped.position,streaming.kept dropped.snapshotDone dropped.opened⟩
  have called : (publisher.source setup).pollRange input (lsnRange «from» last) state =
    publisher.call setup (fun room => pollRange setup room (lsnRange «from» last)) input state := rfl
  rw [called]
  rcases answer : publisher.call setup (fun room => pollRange setup room (lsnRange «from» last))
    input state with ⟨e | batches,after⟩
  · rw [answer] at outcome
    have same : after.self = read := outcome
    exact ⟨same ▸ streaming,(congrArg _ same).trans (position.trans steady.position)⟩
  · rw [answer] at outcome
    have same : after.self = {read with position := last} := outcome.1
    exact ⟨same ▸ streaming,congrArg PostgresCdcSource.position same,outcome.2⟩

lemma Tiled.step [Unrenamed publisher] (tiled : Tiled publisher setup first drive)
    (call : Drive.Call (List WireChoice)) :
    Tiled publisher setup first (drive.step (publisher.source setup) call) := by
  obtain ⟨spans,follow,made⟩ := tiled.spans
  cases call with
  | plan input =>
    have tracks := Happens.tracks (.plan input) tiled.tracks
    obtain ⟨lower,silent,_,streaming,ranges⟩ := plan_advances tiled.tracks tiled.streaming
    obtain ⟨state,batches,pending⟩ := Drive.step_plan
    refine ⟨state ▸ tracks,state ▸ streaming,⟨spans,?_,batches ▸ made⟩,fun range held => ?_⟩
    · rw [state]
      exact follow.advance lower silent
    · rw [state]
      exact ranges range (pending range held).1 (pending range held).2
  | poll input =>
    cases held : drive.pending with
    | none =>
      rw [Drive.step_poll_none held]
      exact tiled
    | some range =>
      obtain ⟨last,rfl,recorded⟩ := tiled.pending range held
      have tracks := Happens.tracks (.poll input (lsnRange drive.state.self.position last)) tiled.tracks
      obtain ⟨streaming,outcome⟩ := poll_recorded tiled.tracks tiled.streaming recorded input
      rcases answer : (publisher.source setup).pollRange input
        (lsnRange drive.state.self.position last) drive.state with ⟨e | batches,state⟩
      · rw [answer] at tracks streaming outcome
        have same := outcome
        rw [Drive.step_poll_error held answer]
        refine ⟨tracks,streaming,⟨spans,?_,made⟩,fun range there => ?_⟩
        · rw [same]
          exact follow
        · rw [same]
          exact tiled.pending range there
      · rw [answer] at tracks streaming outcome
        obtain ⟨same,built⟩ := outcome
        rw [Drive.step_poll_ok held answer]
        refine ⟨tracks,streaming,⟨spans ++ [(drive.state.self.position,last)],?_,?_⟩,nofun⟩
        · have same : state.self.position = last := same
          rw [same]
          exact follow.snoc recorded
        · exact List.rel_append made (.cons ⟨rfl,built⟩ .nil)

lemma Tiled.run [Unrenamed publisher] (tracks : start.Tracks publisher setup)
    (streaming : Streaming setup start.self) (calls) :
    Tiled publisher setup start.self.position (Drive.run (publisher.source setup) start calls) := by
  unfold Drive.run
  have tiled : Tiled publisher setup start.self.position {state := start} :=
    ⟨tracks,streaming,⟨[],⟨le_rfl,Publisher.eventsIn_self⟩,.nil⟩,nofun⟩
  generalize ({state := start} : Drive State) = drive at tiled
  induction calls generalizing drive with
  | nil => exact tiled
  | cons call rest ih => exact ih _ (tiled.step call)

/-- Planned and polled in any way, the stream comes as batches that follow one another: each has the
events of a range that ends at a commit, together every event up to the position, once and in commit
order. A plan moves the position only to where no transaction is half sent. -/
theorem batches_tile_commits [Unrenamed publisher] {server : Server} {offsets : SourceOffsets} {start : State}
    (reached : Reaches publisher setup ⟨({} : PostgresCdcSource).restoreOffsets offsets,server⟩ start)
    (streaming : Streaming setup start.self) (calls : List (Drive.Call (List WireChoice))) :
    let drive := Drive.run (publisher.source setup) start calls
    (∃ spans, Follow publisher setup start.self.position spans drive.state.self.position ∧
      List.Forall₂ (Made publisher setup) spans drive.batches ∧
      (spans.flatMap fun span => publisher.eventsIn setup span.1 span.2) =
        publisher.eventsIn setup start.self.position drive.state.self.position) ∧
    ∀ input, let after := ((publisher.source setup).planBatch input drive.state).2
      after.self.position = drive.state.self.position ∨ Cut publisher after.server after.self.position := by
  intro drive
  have tiled : Tiled publisher setup start.self.position drive :=
    .run (reached.tracks (Tracks.fresh publisher setup server offsets)) streaming calls
  obtain ⟨spans,follow,made⟩ := tiled.spans
  refine ⟨⟨spans,follow,made,follow.events⟩,fun input => ?_⟩
  exact (plan_advances tiled.tracks tiled.streaming).2.2.1

def Sample.drives : List (Drive.Call (List WireChoice)) :=
  [.plan (List.replicate 8 {serverFlush := 30} ++ [{pace := .quiet}]),.poll [],
    .plan [{serverFlush := 30},{},{},{pace := .quiet}],
    .plan [{serverFlush := 30},{},{},{},{pace := .quiet}],.poll []]

def Sample.renamedDrives : List (Drive.Call (List WireChoice)) :=
  [.plan (List.replicate 8 {serverFlush := 30} ++ [{pace := .quiet}]),.poll [],
    .plan (List.replicate 7 {serverFlush := 30} ++ [{pace := .quiet}]),.poll []]

theorem batches_tile_sample :
    Streaming Sample.setup Sample.restored.self ∧
    ∃ spans, List.Forall₂ (Made Sample.publisher Sample.setup) spans
        (Drive.run (Sample.publisher.source Sample.setup) Sample.restored Sample.drives).batches := by
  have streaming : Streaming Sample.setup Sample.restored.self :=
    ⟨by decide,.inr (by decide)⟩
  have reached : Reaches Sample.publisher Sample.setup Sample.restored Sample.restored := .start
  obtain ⟨spans,_,made,_⟩ := (batches_tile_commits reached streaming Sample.drives).1
  exact ⟨streaming,spans,made⟩

/-- The second run is over a log that renames the table: its last batch has a row, the last transaction
no event for the source. -/
theorem sample_ranges_apart :
    (Drive.run (Sample.publisher.source Sample.setup) Sample.restored Sample.drives).batches.map Prod.fst =
      [lsnRange 0 10,lsnRange 20 30] ∧
    (Drive.run (Sample.renamed.source Sample.setup) Sample.restored Sample.renamedDrives).batches.map
      (fun made => (made.1,made.2.map (·.rows.length))) = [(lsnRange 0 10,[2]),(lsnRange 10 30,[1])] ∧
    Sample.renamed.eventsIn Sample.setup 10 30 = [] := by
  decide +kernel
end Oxidant.Cdc
