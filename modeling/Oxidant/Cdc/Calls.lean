import Oxidant.Cdc.Stream

/-! What planning, polling and confirming do to the source and its slot, whatever the wire does
meanwhile. -/
namespace Oxidant.Cdc
open List hiding after count range
open Lib Streaming PostgresCdcSource Act

variable {publisher : Publisher} {setup : Setup} {self : PostgresCdcSource} {wire : Wire}

/-- A range of the stream as a plan records it: it has events, and it ends at a commit. -/
structure Recorded (publisher : Publisher) (setup : Setup) («from» last : Nat) : Prop where
  some : publisher.eventsIn setup «from» last ≠ []
  commit : ∃ txn ∈ publisher.log, txn.endLsn = last

lemma Publisher.eventsIn_ne_nil :
    publisher.eventsIn setup «from» last ≠ [] ↔
    ∃ txn ∈ publisher.log, «from» < txn.endLsn ∧ txn.endLsn ≤ last ∧ txn.events setup ≠ [] := by
  unfold Publisher.eventsIn
  rw [ne_eq,window_eq_nil]
  push Not
  rfl

namespace Recorded
variable {«from» last : Nat}

lemma lt (recorded : Recorded publisher setup «from» last) : «from» < last := by
  obtain ⟨txn,_,past,within,_⟩ := Publisher.eventsIn_ne_nil.mp recorded.some
  omega

lemma small (recorded : Recorded publisher setup «from» last) : last < 2^63 := by
  obtain ⟨txn,_,same⟩ := recorded.commit
  have := txn.small
  omega

end Recorded

/-- Between calls: the stream is where the source believes it, and what is planned are the events of
the recorded range. -/
structure Tracking (publisher : Publisher) (setup : Setup) (source : PostgresCdcSource)
    (server : Server) : Prop extends Attached publisher setup source server where
  planned : ∀ range events, source.planned = some (range,events) → ∃ «from» last,
    range = lsnRange «from» last ∧ Recorded publisher setup «from» last ∧
      events = publisher.eventsIn setup «from» last

variable {after : PostgresCdcSource} {final : Wire}

lemma Steady.tracking (steady : Steady self wire after final) (tracking : Tracking publisher setup self wire.server)
    (attached : Attached publisher setup after final.server) : Tracking publisher setup after final.server where
  toAttached := attached
  planned := by
    rw [steady.planned]
    exact tracking.planned

/-- The source has a new slot, consistent as of a point past all the server has shown, and the
snapshot begins again. -/
structure Reopened (setup : Setup) (source : PostgresCdcSource) (wire : Wire)
    (after : PostgresCdcSource) (final : Wire) : Prop where
  closed : source.opened = false
  incomplete : setup.tables = [] ∨ source.snapshotDone < setup.tables.length
  opened : after.opened = true
  snapshotDone : after.snapshotDone = 0
  position : after.position = final.server.point
  planned : after.planned = source.planned
  shown : final.server.shown = final.server.point
  past : wire.server.shown ≤ final.server.point
  confirmed : final.server.confirmed = wire.server.confirmed
  calm : Calm wire.choices → Calm final.choices
  fewer : final.choices.length ≤ wire.choices.length

/-- A call begins by finding the slot or making one. While the snapshot is not complete it makes
one. -/
def Enters (setup : Setup) (source : PostgresCdcSource) (wire : Wire) (after : PostgresCdcSource)
    (final : Wire) : Prop :=
  Steady source wire after final ∧ (setup.tables ≠ [] →
      source.snapshotDone < setup.tables.length → after.opened = source.opened) ∨
    Reopened setup source wire after final

lemma Enters.fewer (enters : Enters setup self wire after final) : final.choices.length ≤ wire.choices.length := by
  rcases enters with ⟨steady,_⟩ | reopened
  · exact steady.fewer
  · exact reopened.fewer

lemma ensureOpen_ensures (tracking : Tracking publisher setup self wire.server) :
    (ensureOpen setup).Ensures (publisher.reply setup) Anywhere (fun result after final =>
        Tracking publisher setup after final.server ∧ Enters setup self wire after final ∧
        ∀ value, result = .ok value → after.opened = true) self wire := by
  unfold ensureOpen
  rw [ensures_get_bind]
  split
  · next already => exact ⟨tracking,.inl ⟨.refl _ _,fun _ _ => rfl⟩,fun _ _ => already⟩
  next closed =>
  apply (request_ensures (.openSlot _) _).mpr
  rw [ensures_bind,ensures_raise]
  dsimp only [Publisher.answer]
  have untouched : Steady self wire self ⟨wire.choices.tail,wire.server⟩ :=
    .answer _ rfl le_rfl rfl
  cases complete : !setup.tables.isEmpty && decide (setup.tables.length ≤ self.snapshotDone) with
  | true =>
    unfold Publisher.openSlot
    cases (wire.choices.headD Publisher.lost).error with
    | some e => exact ⟨tracking,.inl ⟨untouched,fun _ _ => rfl⟩,nofun⟩
    | none =>
      simp only [Bool.not_true,if_true]
      split
      · exact ⟨tracking,.inl ⟨untouched,fun _ _ => rfl⟩,nofun⟩
      · have tracking : Tracking publisher setup {self with opened := true} wire.server :=
          ⟨tracking.toAttached.kept rfl rfl rfl,tracking.planned⟩
        simp only [Bool.and_eq_true,Bool.not_eq_true',decide_eq_true_eq] at complete
        exact ⟨tracking,.inl ⟨untouched.modify (fun self => {self with opened := true}) rfl rfl
          (fun _ => rfl) rfl,fun _ less => absurd complete.2 (Nat.not_le.mpr less)⟩,fun _ _ => rfl⟩
  | false =>
    unfold Publisher.openSlot
    cases (wire.choices.headD Publisher.lost).error with
    | some e => exact ⟨⟨.lost tracking.named _ (.inr rfl),tracking.planned⟩,
        .inl ⟨.answer _ rfl le_rfl rfl,fun _ _ => rfl⟩,nofun⟩
    | none =>
      refine ⟨⟨.lost ?_ _ (.inr rfl),tracking.planned⟩,.inr ?_,fun _ _ => rfl⟩
      · exact fun oid relation found => tracking.named oid relation found
      · simp only [Bool.and_eq_false_iff,Bool.not_eq_false',List.isEmpty_iff,
          decide_eq_false_iff_not,Nat.not_le] at complete
        exact
          { closed := by simpa using closed
            incomplete := complete
            opened := rfl
            snapshotDone := rfl
            position := rfl
            planned := rfl
            shown := rfl
            past := le_max_right _ _
            confirmed := rfl
            calm := fun calm choice mem => calm choice (mem_of_mem_tail mem)
            fewer := by simp }

lemma guardSlot_ensures :
    (guardSlot setup).Ensures (publisher.reply setup) Anywhere
      (fun _ after final => after = self ∧ final = ⟨wire.choices.tail,wire.server⟩) self wire := by
  apply (request_ensures .slotMetrics _).mpr
  rw [ensures_bind,ensures_raise]
  dsimp only [Publisher.answer]
  cases (wire.choices.headD Publisher.lost).error with
  | some e => exact ⟨rfl,rfl⟩
  | none =>
    dsimp only
    split
    · exact ⟨rfl,rfl⟩
    · exact ⟨rfl,rfl⟩

lemma heartbeat_ensures :
    heartbeat.Ensures (publisher.reply setup) Anywhere (fun _ after final =>
        after = self ∧ Wired (fun lsn => lsn = self.position) wire final ∧
        (final.server.session = wire.server.session ∨ final.server.session = none)) self wire := by
  apply (request_ensures .statusElapsed _).mpr
  have quiet : Wired (fun lsn => lsn = self.position) wire ⟨wire.choices.tail,wire.server⟩ :=
    .answer _ rfl le_rfl rfl
  change (if (wire.choices.headD Publisher.lost).statusElapsed = true then
    confirmPosition >>= fun _ => pure () else pure () : Method Unit).Ensures _ _ _ self
    (Wire.mk wire.choices.tail wire.server)
  split
  · next due =>
    have asked : ¬ Calm wire.choices := by
      cases choices : wire.choices with
      | nil => simp [choices,Publisher.lost] at due
      | cons choice rest =>
        intro calm
        have calm := calm choice mem_cons_self
        rw [choices] at due
        change choice.statusElapsed = true at due
        simp [WireChoice.solicits,due] at calm
    rw [ensures_bind]
    apply confirmPosition_ensures
    intro result server point shown confirmed outcome
    have sent := quiet.confirm rfl asked point shown confirmed
    rcases result with e | _
    · exact ⟨rfl,sent,.inr outcome⟩
    · exact ⟨rfl,sent,.inl outcome⟩
  · exact ⟨rfl,quiet,.inl rfl⟩

/-- The position moves over a stretch with nothing for the source, to where no transaction is half
sent. -/
structure Advance (publisher : Publisher) (setup : Setup) (source : PostgresCdcSource)
    (wire : Wire) (after : PostgresCdcSource) (final : Wire) : Prop
    extends Wired (fun lsn => lsn = source.position ∨ lsn = after.position) wire final where
  lower : source.position ≤ after.position
  silent : publisher.eventsIn setup source.position after.position = []
  seen : after.position ≤ max source.position final.server.shown
  cut : after.position = source.position ∨ Cut publisher final.server after.position
  snapshotDone : after.snapshotDone = source.snapshotDone
  opened : source.opened = true → after.opened = true

lemma Publisher.eventsIn_self : publisher.eventsIn setup lsn lsn = [] :=
  window_eq_nil.mpr fun _ _ past within => absurd past (Nat.not_lt.mpr within)

lemma Steady.advance (steady : Steady self wire after final) : Advance publisher setup self wire after final where
  toWired := steady.toWired.mono fun _ => .inl
  lower := le_of_eq steady.position.symm
  silent := by
    rw [steady.position]
    exact Publisher.eventsIn_self
  seen := by
    rw [steady.position]
    exact le_max_left _ _
  cut := .inl steady.position
  snapshotDone := steady.snapshotDone
  opened := steady.opened

def Plans (publisher : Publisher) (setup : Setup) (source after : PostgresCdcSource) (range : BatchRange) : Prop :=
  range = {} ∨ after.position = source.position ∧ (source.snapshotDone < setup.tables.length ∧
        range = snapshotRange source.snapshotDone source.position ∨
      setup.tables.length ≤ source.snapshotDone ∧ ∃ last,
        range = lsnRange source.position last ∧ Recorded publisher setup source.position last ∧
        after.planned = some (range,publisher.eventsIn setup source.position last))

lemma afterRead_ensures (complete : setup.tables.length ≤ self.snapshotDone)
    (tracking : Tracking publisher setup self wire.server) (steady : Steady self wire after final)
    (attached : Attached publisher setup after final.server)
    (covers : Covers publisher setup self.position stop events last)
    (seen : last ≤ max self.position final.server.shown)
    (cut : last = self.position ∨ Cut publisher final.server last) :
    (if events.isEmpty then do
        Act.modify fun self => {self with position := max self.position last}
        heartbeat
        return {}
      else
        let range := lsnRange self.position last
        do
          Act.modify fun self => {self with planned := some (range,events)}
          return range : Method BatchRange).Ensures (publisher.reply setup) Anywhere
      (fun result after final => Tracking publisher setup after final.server ∧
        Advance publisher setup self wire after final ∧
        ∀ range, result = .ok range → Plans publisher setup self after range) after final := by
  have tracking := steady.tracking tracking attached
  split
  · next empty =>
    rw [ensures_bind,ensures_modify]
    rw [steady.position,Nat.max_eq_right covers.lower,ensures_bind]
    apply ensures_mono heartbeat_ensures
    rintro result moved ending ⟨rfl,wired,session⟩
    have same : Tracking publisher setup {after with position := last} ending.server :=
      ⟨(attached.server session).kept rfl rfl rfl,tracking.planned⟩
    have advance : Advance publisher setup self wire {after with position := last} ending :=
      { toWired := (steady.toWired.mono fun _ => .inl).trans (wired.mono fun _ => .inr)
        lower := covers.lower
        silent := covers.within.symm.trans (isEmpty_iff.mp empty)
        seen := le_trans seen (by have := wired.shown; omega)
        cut := cut.imp id fun cut found there => by
          rcases session with kept | gone
          · exact cut found (kept.symm.trans there)
          · rw [gone] at there
            cases there
        snapshotDone := steady.snapshotDone
        opened := steady.opened }
    rcases result with e | _
    · exact ⟨same,advance,nofun⟩
    · exact ⟨same,advance,fun _ done => by cases done; exact .inl rfl⟩
  · next some =>
    rw [List.isEmpty_iff] at some
    have recorded : Recorded publisher setup self.position last :=
      ⟨covers.within ▸ some,covers.commit some⟩
    refine ⟨⟨attached.kept rfl rfl rfl,?_⟩,?_,?_⟩
    · intro range found planned
      cases planned
      exact ⟨_,_,rfl,recorded,covers.within⟩
    · have advance : Advance publisher setup self wire after final := steady.advance
      exact {advance with}
    · intro range done
      cases done
      refine .inr ⟨steady.position,.inr ⟨complete,last,rfl,recorded,?_⟩⟩
      rw [← covers.within]

variable (room : Nat)

lemma planBatch_ensures [Unrenamed publisher] (tracking : Tracking publisher setup self wire.server)
    (enough : wire.choices.length < room) :
    (planBatch setup room).Ensures (publisher.reply setup) Anywhere (fun result after final =>
        Tracking publisher setup after final.server ∧
        ∃ middle between, Enters setup self wire middle between ∧
          Advance publisher setup middle between after final ∧
          (middle.snapshotDone < setup.tables.length → after = middle ∧ final.server = between.server) ∧
          ∀ range, result = .ok range → middle.opened = true ∧ Plans publisher setup middle after range)
      self wire := by
  apply ensures_then (ensureOpen_ensures tracking)
  rintro result middle between ⟨tracking,enters,opened⟩
  rcases result with e | _
  · exact ⟨tracking,middle,between,enters,(Steady.refl _ _).advance,fun _ => ⟨rfl,rfl⟩,nofun⟩
  apply ensures_then guardSlot_ensures
  rintro result guarded between' ⟨rfl,rfl⟩
  have steady : Steady guarded between guarded ⟨between.choices.tail,between.server⟩ :=
    .answer _ rfl le_rfl rfl
  rcases result with e | metrics
  · exact ⟨tracking,guarded,between,enters,steady.advance,fun _ => ⟨rfl,rfl⟩,nofun⟩
  dsimp only
  rw [ensures_get_bind]
  split
  · next more => exact ⟨tracking,guarded,between,enters,steady.advance,fun _ => ⟨rfl,rfl⟩,
      fun range done => by cases done; exact ⟨opened () rfl,.inr ⟨rfl,.inl ⟨more,rfl⟩⟩⟩⟩
  next complete =>
  rw [ensures_bind]
  have enough : between.choices.tail.length < room := by
    have := enters.fewer
    rw [length_tail]
    omega
  refine ensures_mono (readForward_ensures _ _ _ tracking.toAttached enough) ?_
  rintro result after final ⟨read,attached,covers⟩
  rcases result with e | ⟨events,last⟩
  · exact ⟨(steady.trans read).tracking tracking attached,guarded,between,enters,
      (steady.trans read).advance,fun more => absurd more complete,nofun⟩
  obtain ⟨covers,seen,cut⟩ := covers events last rfl
  refine ensures_mono (afterRead_ensures (Nat.le_of_not_lt complete) tracking
    (steady.trans read) attached covers seen cut) ?_
  rintro result ending last ⟨tracking,advance,plans⟩
  exact ⟨tracking,guarded,between,enters,advance,fun more => absurd more complete,
    fun range done => ⟨opened () rfl,plans range done⟩⟩

section Ranges
variable {«from» last : Nat}

@[simp] lemma lsnRange_start : (lsnRange «from» last).start[lsnKey]? = some (Lsn.asI64 «from») := by
  simp [lsnRange]

@[simp] lemma lsnRange_end : (lsnRange «from» last).end[lsnKey]? = some (Lsn.asI64 last) := by simp [lsnRange]

@[simp] lemma lsnRange_snapshot : (lsnRange «from» last).start[snapshotKey]? = none := by
  simp [lsnRange,lsnKey,snapshotKey]

lemma Recorded.nonempty (recorded : Recorded publisher setup «from» last) :
    (lsnRange «from» last).isEmpty = false := by
  have mem : (lsnKey,Lsn.asI64 last) ∈ (lsnRange «from» last).end.toList :=
    Std.ExtTreeMap.mem_toList_iff_getElem?_eq_some.mpr lsnRange_end
  have past : Lsn.asI64 «from» < Lsn.asI64 last := Lsn.asI64_lt recorded.lt recorded.small
  unfold BatchRange.isEmpty
  rw [Bool.and_eq_false_iff]
  right
  rw [all_eq_false]
  refine ⟨_,mem,?_⟩
  dsimp only
  rw [lsnRange_start,Option.getD_some,decide_eq_true_eq]
  exact Int.not_le.mpr past

lemma Recorded.unique (one : Recorded publisher setup «from» last) (other : Recorded publisher setup first stop)
    (same : lsnRange «from» last = lsnRange first stop) : «from» = first ∧ last = stop := by
  have starts := congrArg (·.start[lsnKey]?) same
  have ends := congrArg (·.end[lsnKey]?) same
  simp only [lsnRange_start,lsnRange_end,Option.some.injEq] at starts ends
  exact ⟨Lsn.asI64_inj (lt_trans one.lt one.small) (lt_trans other.lt other.small) starts,
    Lsn.asI64_inj one.small other.small ends⟩

end Ranges

lemma replay_ensures [Unrenamed publisher] (room «from» last) (attached : Attached publisher setup self wire.server)
    (enough : wire.choices.length < room) :
    (replay setup room «from» last).Ensures (publisher.reply setup) Anywhere (fun result after final =>
        Steady self wire after final ∧ Attached publisher setup after final.server ∧
        ∀ events, result = .ok events → Recorded publisher setup «from» last →
          events = publisher.eventsIn setup «from» last) self wire := by
  apply ensures_then (ensureStream_ensures «from» attached)
  rintro (e | _) middle between ⟨steady,attached,_⟩
  · exact ⟨steady,attached,nofun⟩
  refine ensures_then (readForward_ensures «from» last (2^64 - 1) attached
    (lt_of_le_of_lt steady.fewer enough)) ?_
  rintro (e | ⟨events,reached⟩) after final ⟨read,attached,covers⟩
  · exact ⟨steady.trans read,attached,nofun⟩
  dsimp only
  split
  · exact ⟨steady.trans read,attached,nofun⟩
  · next far =>
    refine ⟨steady.trans read,attached,fun found done recorded => ?_⟩
    cases done
    obtain ⟨txn,mem,target⟩ := recorded.commit
    obtain rfl := (covers events reached rfl).1.upTo txn mem target recorded.some (Nat.le_of_not_lt far)
    rw [filter_eq_self]
    intro event among
    exact decide_eq_true (Publisher.eventsIn_lsn recorded.small among)

lemma rangeEvents_ensures [Unrenamed publisher] («from» : Nat)
    (tracking : Tracking publisher setup self wire.server) (enough : wire.choices.length < room) :
    (rangeEvents setup room range «from» last).Ensures (publisher.reply setup) Anywhere (fun result after final =>
        Steady {self with planned := none} wire after final ∧ Attached publisher setup after final.server ∧
        ∀ events, result = .ok events → range = lsnRange «from» last → Recorded publisher setup «from» last →
          events = publisher.eventsIn setup «from» last) self wire := by
  have dropped : Attached publisher setup {self with planned := none} wire.server :=
    tracking.toAttached.kept rfl rfl rfl
  unfold rangeEvents
  rw [ensures_get_bind,ensures_bind,ensures_modify]
  dsimp only
  split
  · next planned events kept =>
    split
    · next same =>
      refine ⟨.refl _ _,dropped,fun found done written recorded => ?_⟩
      cases done
      obtain ⟨first,stop,range',recorded',rfl⟩ := tracking.planned _ _ kept
      obtain ⟨rfl,rfl⟩ := recorded.unique recorded' (written.symm.trans (same.symm.trans range'))
      rfl
    · apply ensures_mono (replay_ensures room «from» last dropped enough)
      rintro result after final ⟨steady,attached,same⟩
      exact ⟨steady,attached,fun events done _ => same events done⟩
  · apply ensures_mono (replay_ensures room «from» last dropped enough)
    rintro result after final ⟨steady,attached,same⟩
    exact ⟨steady,attached,fun events done _ => same events done⟩

lemma pollStream_ensures [Unrenamed publisher] («from») (tracking : Tracking publisher setup self wire.server)
    (enough : wire.choices.length < room) :
    (pollStream setup room range «from» last).Ensures (publisher.reply setup) Anywhere
      (fun result after final => Tracking publisher setup after final.server ∧
        ∃ read, Steady {self with planned := none} wire read final ∧ match result with
          | .error _ => after = read
          | .ok batches => after = {read with position := last} ∧
            (range = lsnRange «from» last → Recorded publisher setup «from» last →
              setup.buildBatches (publisher.eventsIn setup «from» last) = .ok batches)) self wire := by
  apply ensures_then (rangeEvents_ensures room «from» tracking enough)
  rintro result read final ⟨steady,attached,same⟩
  have none : read.planned = .none := steady.planned
  have tracking : Tracking publisher setup read final.server :=
    ⟨attached,fun _ _ found => by simp [none] at found⟩
  rcases result with e | events
  · exact ⟨tracking,read,steady,rfl⟩
  dsimp only
  cases built : setup.buildBatches events with
  | error e => exact ⟨tracking,read,steady,rfl⟩
  | ok batches =>
    refine ⟨⟨attached.kept rfl rfl rfl,tracking.planned⟩,read,steady,rfl,?_⟩
    intro written recorded
    rw [← same events rfl written recorded,built]

structure Aside (wire final : Wire) : Prop extends Wired (fun _ => False) wire final where
  session : final.server.session = wire.server.session ∨ final.server.session = none

lemma Aside.refl (wire) : Aside wire wire := ⟨.refl _ _,.inl rfl⟩

lemma Aside.trans (one : Aside wire between) (other : Aside between final) : Aside wire final where
  toWired := one.toWired.trans other.toWired
  session := by
    rcases other.session with kept | gone
    · rw [kept]
      exact one.session
    · exact .inr gone

lemma Aside.perform (wire choice) (value : α) (cursor) :
    Aside wire ⟨wire.choices.tail,(Publisher.perform choice wire.server value {wire.server with cursor}).2⟩ := by
  rcases perform_cases choice wire.server {wire.server with cursor} value with same | ⟨e,same⟩
  · rw [same]
    exact ⟨.answer _ rfl le_rfl rfl,.inl rfl⟩
  · rw [same]
    exact ⟨.answer _ rfl le_rfl rfl,.inr rfl⟩

def snapshotEvents (point : Nat) (rows : List (List (Option String))) : List ChangeEvent :=
  rows.map fun values => ⟨.snapshot,I64.saturatingSub (Lsn.asI64 point) 1,none,values⟩

inductive Sliced (setup : Setup) (point : Nat) : List (List (Option String)) → List RecordBatch → Prop
  | nil : Sliced setup point [] []
  | cons {slice rest : List (List (Option String))} {batches more : List RecordBatch}
    (built : setup.buildBatches (snapshotEvents point slice) = .ok batches)
    (others : Sliced setup point rest more) : Sliced setup point (slice ++ rest) (batches ++ more)

lemma perform_ok {after : Server} (done : (Publisher.perform choice server value after).1 = .ok found) :
    found = value ∧ (Publisher.perform choice server value after).2 = after := by
  unfold Publisher.perform at done ⊢
  split at done
  · cases done
    exact ⟨rfl,rfl⟩
  · cases done

lemma readSlices_ensures (wire : Wire) :
    (readSlices setup room).Ensures (publisher.reply setup) Anywhere (fun result after final =>
        after = self ∧ Aside wire final ∧
        ∀ batches, result = .ok batches → 0 < setup.snapshotBatchRows →
          Sliced setup self.position wire.server.cursor batches) self wire := by
  induction room generalizing wire with
  | zero => exact ⟨rfl,.refl _,nofun⟩
  | succ room ih =>
    apply (request_ensures (.snapshotFetch _) _).mpr
    rw [ensures_bind,ensures_raise]
    dsimp only [Publisher.answer]
    have aside := Aside.perform wire (wire.choices.headD Publisher.lost)
      (wire.server.cursor.take setup.snapshotBatchRows)
      (wire.server.cursor.drop setup.snapshotBatchRows)
    split
    · next rows done =>
      obtain ⟨taken,left⟩ := perform_ok done
      split
      · next empty =>
        refine ⟨rfl,aside,fun batches same some => ?_⟩
        cases same
        rw [isEmpty_iff.mp empty,eq_comm,take_eq_nil_iff] at taken
        rw [taken.resolve_left (ne_of_gt some)]
        exact .nil
      · rw [ensures_get_bind,ensures_bind,ensures_raise]
        split
        · next batches built =>
          apply ensures_then (ih _)
          rintro (e | more) after final ⟨rfl,further,slices⟩
          · exact ⟨rfl,aside.trans further,nofun⟩
          · refine ⟨rfl,aside.trans further,fun found same some => ?_⟩
            cases same
            have slices := slices more rfl some
            rw [left] at slices
            have whole := Sliced.cons (taken ▸ built) slices
            rwa [take_append_drop] at whole
        · exact ⟨rfl,aside,nofun⟩
    · exact ⟨rfl,aside,nofun⟩

lemma readTable_ensures :
    (readTable setup room table).Ensures (publisher.reply setup) Anywhere (fun result after final =>
        after = self ∧ Aside wire final ∧
        ∀ batches, result = .ok batches → 0 < setup.snapshotBatchRows →
          Sliced setup self.position (publisher.tableAt wire.server.point table) batches) self wire := by
  apply (request_ensures (.snapshotOpen _) _).mpr
  rw [ensures_bind,ensures_raise]
  dsimp only [Publisher.answer]
  have aside := Aside.perform wire (wire.choices.headD Publisher.lost) () (publisher.tableAt wire.server.point table)
  split
  · next opened =>
    obtain ⟨_,cursor⟩ := perform_ok opened
    apply ensures_then (readSlices_ensures room _)
    rintro (e | batches) after final ⟨rfl,further,slices⟩
    · exact ⟨rfl,aside.trans further,nofun⟩
    · apply (request_ensures .snapshotClose _).mpr
      rw [ensures_bind,ensures_raise]
      have closing := Aside.perform final (final.choices.headD Publisher.lost) () final.server.cursor
      split
      · refine ⟨rfl,(aside.trans further).trans closing,fun found same some => ?_⟩
        cases same
        have slices := slices batches rfl some
        rwa [cursor] at slices
      · exact ⟨rfl,(aside.trans further).trans closing,nofun⟩
  · exact ⟨rfl,aside,nofun⟩

/-- What a poll of the snapshot leaves. A range that does not count sends it back to the first
table. -/
structure SnapshotPolled (publisher : Publisher) (setup : Setup) (index : Nat) (counts : Bool)
    (source : PostgresCdcSource) (server : Server) (result : Except Error (List RecordBatch))
    (after : PostgresCdcSource) : Prop where
  position : after.position = source.position
  planned : after.planned = source.planned
  opened : after.opened = true → source.opened = true
  failed : ∀ e, result = .error e →
    after.snapshotDone = source.snapshotDone ∨ counts = false ∧ after.snapshotDone = 0
  done : ∀ batches, result = .ok batches → after.opened = source.opened ∧
    after.snapshotDone = (if counts then index + 1 else 0) ∧ ∃ table,
      setup.tables[index]? = some table ∧ (0 < setup.snapshotBatchRows →
        Sliced setup source.position (publisher.tableAt server.point table) batches)

lemma pollSnapshot_ensures (room) (tracking : Tracking publisher setup self wire.server) :
    (pollSnapshot setup room index plannedAt).Ensures (publisher.reply setup) Anywhere (fun result after final =>
        Tracking publisher setup after final.server ∧ Wired (fun _ => False) wire final ∧
        SnapshotPolled publisher setup index (plannedAt == some (Lsn.asI64 self.position)) self wire.server
          result after) self wire := by
  unfold pollSnapshot
  split
  · exact ⟨tracking,.refl _ _,rfl,rfl,id,fun _ _ => .inl rfl,nofun⟩
  next table there =>
  rw [ensures_get_bind,ensures_bind,ensures_modify]
  dsimp only
  generalize (plannedAt == some (Lsn.asI64 self.position)) = counts
  split
  · refine ⟨⟨tracking.toAttached.kept rfl rfl rfl,tracking.planned⟩,.refl _ _,rfl,rfl,id,fun _ _ => ?_,nofun⟩
    cases counts
    · exact .inr ⟨rfl,rfl⟩
    · exact .inl rfl
  rw [ensures_bind,ensures_attempt]
  apply ensures_mono (readTable_ensures room)
  rintro (e | batches) after final ⟨rfl,aside,slices⟩
  · refine ⟨⟨.lost ?_ _ (.inl rfl),tracking.planned⟩,aside.toWired,rfl,rfl,nofun,fun _ _ => ?_,nofun⟩
    · exact fun oid relation found => tracking.named oid relation found
    · cases counts
      · exact .inr ⟨rfl,rfl⟩
      · exact .inl rfl
  · refine ⟨⟨(tracking.toAttached.server aside.session).kept rfl rfl rfl,tracking.planned⟩,
      aside.toWired,rfl,rfl,id,nofun,fun found same => ?_⟩
    cases same
    refine ⟨rfl,?_,table,there,slices batches rfl⟩
    cases counts <;> rfl

lemma pollRange_tracking [Unrenamed publisher] (range) (tracking : Tracking publisher setup self wire.server)
    (enough : wire.choices.length < room) :
    (pollRange setup room range).Ensures (publisher.reply setup) Anywhere
      (fun _ after final => Tracking publisher setup after final.server) self wire := by
  unfold pollRange
  split
  · exact tracking
  split
  · exact tracking
  apply ensures_then (ensureOpen_ensures tracking)
  rintro (e | _) middle between ⟨tracking,enters,_⟩
  · exact tracking
  dsimp only
  split
  · exact ensures_mono (pollSnapshot_ensures room tracking) fun _ _ _ found => found.1
  · exact ensures_mono (pollStream_ensures room _ tracking
      (lt_of_le_of_lt enters.fewer enough)) fun _ _ _ found => found.1

lemma pollRange_recorded [Unrenamed publisher] (recorded : Recorded publisher setup «from» last)
    (tracking : Tracking publisher setup self wire.server) (enough : wire.choices.length < room) :
    (pollRange setup room (lsnRange «from» last)).Ensures (publisher.reply setup) Anywhere
      (fun result after final => Tracking publisher setup after final.server ∧
        ∃ middle between read, Enters setup self wire middle between ∧
          (Steady middle between read final ∨ Steady {middle with planned := none} between read final) ∧
          match result with
          | .error _ => after = read
          | .ok batches => after = {read with position := last} ∧
            setup.buildBatches (publisher.eventsIn setup «from» last) = .ok batches) self wire := by
  have small := recorded.small
  have below := recorded.lt
  unfold pollRange
  rw [if_neg (by simp [recorded.nonempty]),if_neg (by simp [lsnRange])]
  apply ensures_then (ensureOpen_ensures tracking)
  rintro result middle between ⟨tracking,enters,opened⟩
  rcases result with e | _
  · exact ⟨tracking,middle,between,middle,enters,.inl (.refl _ _),rfl⟩
  rw [lsnRange_snapshot,lsnRange_start,lsnRange_end,Option.getD_some,Option.getD_some,
    Lsn.fromI64_asI64 (by omega),Lsn.fromI64_asI64 (by omega)]
  apply ensures_mono (pollStream_ensures room «from» tracking (lt_of_le_of_lt enters.fewer enough))
  rintro (e | batches) after final ⟨tracking,read,steady,rest⟩
  · exact ⟨tracking,middle,between,read,enters,.inr steady,rest⟩
  · exact ⟨tracking,middle,between,read,enters,.inr steady,rest.1,rest.2 rfl recorded⟩

section SnapshotRanges
variable {index point : Nat}

@[simp] lemma snapshotRange_index : (snapshotRange index point).start[snapshotKey]? = some (I64.ofNat index) := by
  simp [snapshotRange,snapshotKey,consistentPointKey]

@[simp] lemma snapshotRange_point :
    (snapshotRange index point).start[consistentPointKey]? = some (Lsn.asI64 point) := by
  have apart : ¬ compare snapshotKey consistentPointKey = .eq := by decide
  simp only [snapshotRange,Std.ExtTreeMap.insert_eq_insert,Std.ExtTreeMap.singleton_eq_insert]
  rw [Std.ExtTreeMap.getElem?_insert,if_neg apart,Std.ExtTreeMap.getElem?_insert_self]

lemma snapshotRange_nonempty : (snapshotRange index point).isEmpty = false := by
  have mem : (snapshotKey,I64.ofNat index + 1) ∈ (snapshotRange index point).end.toList := by
    refine Std.ExtTreeMap.mem_toList_iff_getElem?_eq_some.mpr ?_
    simp [snapshotRange]
  unfold BatchRange.isEmpty
  rw [Bool.and_eq_false_iff]
  right
  rw [all_eq_false]
  refine ⟨_,mem,?_⟩
  dsimp only
  rw [snapshotRange_index,Option.getD_some,decide_eq_true_eq]
  omega

end SnapshotRanges

lemma pollRange_snapshot (small : index < 2^63) (tracking : Tracking publisher setup self wire.server) :
    (pollRange setup room (snapshotRange index point)).Ensures (publisher.reply setup) Anywhere
      (fun result after final =>
          Tracking publisher setup after final.server ∧
          ∃ middle between, Enters setup self wire middle between ∧ Wired (fun _ => False) between final ∧
            (∀ batches, result = .ok batches → middle.opened = true) ∧
            SnapshotPolled publisher setup index (some (Lsn.asI64 point) == some (Lsn.asI64 middle.position)) middle
              between.server result after) self wire := by
  unfold pollRange
  rw [if_neg (by simp [snapshotRange_nonempty]),if_neg (by simp [snapshotRange])]
  apply ensures_then (ensureOpen_ensures tracking)
  rintro result middle between ⟨tracking,enters,opened⟩
  rcases result with e | _
  · exact ⟨tracking,middle,between,enters,.refl _ _,nofun,rfl,rfl,id,fun _ _ => .inl rfl,nofun⟩
  have number : (I64.ofNat index).toNat = index := by
    have same : I64.ofNat index = index := Lsn.asI64_eq small
    rw [same]
    rfl
  rw [snapshotRange_index,snapshotRange_point]
  dsimp only
  rw [number]
  apply ensures_mono (pollSnapshot_ensures room tracking)
  rintro result after final ⟨tracking,wired,polled⟩
  exact ⟨tracking,middle,between,enters,wired,fun _ _ => opened () rfl,polled⟩

lemma markDurable_ensures (tracking : Tracking publisher setup self wire.server) :
    (markDurable setup).Ensures (publisher.reply setup) Anywhere (fun _ after final =>
        Tracking publisher setup after final.server ∧ after.position = self.position ∧
        after.snapshotDone = self.snapshotDone ∧ (self.opened = true → after.opened = true) ∧
        final.server.point = wire.server.point ∧ wire.server.shown ≤ final.server.shown ∧
        ∃ sent, final.server.confirmed = wire.server.confirmed ++ sent ∧ ∀ lsn ∈ sent, lsn = self.position)
      self wire := by
  unfold markDurable
  rw [ensures_get_bind]
  split
  · apply ensures_then (finishSnapshot_ensures tracking.toAttached)
    rintro result after final ⟨steady,attached,_⟩
    have tracking := steady.tracking tracking attached
    rcases result with e | _
    · exact ⟨tracking,steady.position,steady.snapshotDone,steady.opened,steady.point,steady.shown,steady.confirmed⟩
    rw [ensures_bind]
    apply confirmPosition_ensures
    intro result server point shown confirmed outcome
    have session : server.session = final.server.session ∨ server.session = none := by
      rcases result with e | _
      · exact .inr outcome
      · exact .inl outcome
    have tracking : Tracking publisher setup after server :=
      ⟨attached.server session,tracking.planned⟩
    have sent : ∃ sent, server.confirmed = wire.server.confirmed ++ sent ∧ ∀ lsn ∈ sent, lsn = self.position := by
      obtain ⟨sent,same,all⟩ := steady.confirmed
      rcases confirmed with kept | more
      · exact ⟨sent,kept.trans same,all⟩
      · refine ⟨sent ++ [after.position],by rw [more,same,append_assoc],?_⟩
        intro lsn mem
        rcases mem_append.mp mem with before | last
        · exact all lsn before
        · rw [mem_singleton.mp last,steady.position]
    have rest := And.intro (point.trans steady.point) (And.intro (le_trans steady.shown (le_of_eq shown.symm)) sent)
    rcases result with e | _
    · exact ⟨tracking,steady.position,steady.snapshotDone,steady.opened,rest⟩
    · exact ⟨tracking,steady.position,steady.snapshotDone,steady.opened,rest⟩
  · exact ⟨tracking,rfl,rfl,id,rfl,le_rfl,[],by simp,nofun⟩

lemma markDurable_opened (tracking : Tracking publisher setup self wire.server) :
    (markDurable setup).Ensures (publisher.reply setup) Anywhere
      (fun _ after _ => after.opened = true → self.opened = true) self wire := by
  cases opened : self.opened with
  | true => exact ensures_mono (markDurable_ensures tracking) fun _ _ _ _ _ => rfl
  | false =>
    unfold markDurable
    rw [ensures_get_bind,if_neg (by simp [opened]),ensures_pure,opened]
    exact id

structure Silent (wire final : Wire) : Prop where
  session : final.server.session = none
  confirmed : final.server.confirmed = wire.server.confirmed

section Silent
variable (gone : wire.server.session = none)
include gone

lemma perform_silent (choice) (value : α) (after) (session : after.session = wire.server.session)
    (confirmed : after.confirmed = wire.server.confirmed) (choices) :
    Silent wire ⟨choices,(Publisher.perform choice wire.server value after).2⟩ := by
  rcases perform_cases choice wire.server after value with same | ⟨e,same⟩
  · rw [same]
    exact ⟨session.trans gone,confirmed⟩
  · rw [same]
    exact ⟨rfl,rfl⟩

lemma openSlot_silent (choice create choices) :
    Silent wire ⟨choices,(Publisher.openSlot choice create wire.server).2⟩ := by
  unfold Publisher.openSlot
  split <;> first | exact ⟨gone,rfl⟩ | exact ⟨rfl,rfl⟩

lemma ensureOpen_silent :
    (ensureOpen setup).Ensures (publisher.reply setup) Anywhere (fun _ _ final => Silent wire final) self wire := by
  unfold ensureOpen
  rw [ensures_get_bind]
  split
  · exact ⟨gone,rfl⟩
  apply (request_ensures (.openSlot _) _).mpr
  rw [ensures_bind,ensures_raise]
  have silent := openSlot_silent gone (wire.choices.headD Publisher.lost)
    (!(!setup.tables.isEmpty && decide (setup.tables.length ≤ self.snapshotDone))) wire.choices.tail
  split
  · split
    · split
      · exact silent
      · exact silent
    · exact silent
  · exact silent

lemma planBatch_silent (room) (tracking : Tracking publisher setup self wire.server) (some : setup.tables ≠ [])
    (incomplete : self.snapshotDone < setup.tables.length) :
    (planBatch setup room).Ensures (publisher.reply setup) Anywhere (fun _ _ final => Silent wire final)
      self wire := by
  apply ensures_then (ensures_and (ensureOpen_ensures tracking) (ensureOpen_silent gone))
  rintro (e | _) middle between ⟨⟨tracking,enters,_⟩,silent⟩
  · exact silent
  have incomplete : middle.snapshotDone < setup.tables.length := by
    rcases enters with ⟨steady,_⟩ | reopened
    · exact steady.snapshotDone ▸ incomplete
    · rw [reopened.snapshotDone]
      exact length_pos_iff.mpr some
  apply ensures_then guardSlot_ensures
  rintro (e | metrics) guarded final ⟨rfl,rfl⟩
  · exact ⟨silent.session,silent.confirmed⟩
  dsimp only
  rw [ensures_get_bind,if_pos incomplete]
  exact ⟨silent.session,silent.confirmed⟩

lemma pollSnapshot_silent (room) :
    (pollSnapshot setup room index plannedAt).Ensures (publisher.reply setup) Anywhere
      (fun _ _ final => Silent wire final) self wire := by
  unfold pollSnapshot
  split
  · exact ⟨gone,rfl⟩
  rw [ensures_get_bind,ensures_bind,ensures_modify]
  dsimp only
  split
  · exact ⟨gone,rfl⟩
  rw [ensures_bind,ensures_attempt]
  apply ensures_mono (readTable_ensures room)
  rintro result after final ⟨_,aside,_⟩
  have session : final.server.session = none := by
    rcases aside.session with same | none
    · exact same.trans gone
    · exact none
  have confirmed : final.server.confirmed = wire.server.confirmed := by
    obtain ⟨sent,same,all⟩ := aside.confirmed
    cases sent with
    | nil => simpa using same
    | cons lsn rest => exact (all lsn mem_cons_self).elim
  rcases result with e | batches
  · exact ⟨session,confirmed⟩
  · exact ⟨session,confirmed⟩

lemma pollRange_silent (room) :
    (pollRange setup room (snapshotRange index point)).Ensures (publisher.reply setup) Anywhere
      (fun _ _ final => Silent wire final) self wire := by
  unfold pollRange
  rw [if_neg (by simp [snapshotRange_nonempty]),if_neg (by simp [snapshotRange])]
  apply ensures_then (ensureOpen_silent gone)
  rintro (e | _) middle between silent
  · exact silent
  rw [snapshotRange_index]
  apply ensures_mono (pollSnapshot_silent silent.session room)
  rintro result after final more
  exact ⟨more.session,more.confirmed.trans silent.confirmed⟩

lemma markDurable_silent :
    (markDurable setup).Ensures (publisher.reply setup) Anywhere (fun _ _ final => Silent wire final)
      self wire := by
  have confirms (wire : Wire) (gone : wire.server.session = none) (self : PostgresCdcSource) :
      confirmPosition.Ensures (publisher.reply setup) Anywhere (fun _ _ final => Silent wire final) self wire := by
    unfold confirmPosition
    rw [ensures_get_bind]
    apply (request_ensures (.confirm _ _) _).mpr
    have same (choice : WireChoice) (flushed : Nat) :
        Publisher.confirm choice flushed wire.server = (.ok false,wire.server) := by
      unfold Publisher.confirm
      rw [gone]
    dsimp only [Publisher.answer]
    rw [same]
    exact ⟨gone,rfl⟩
  unfold markDurable
  rw [ensures_get_bind]
  split
  · rw [ensures_bind]
    unfold finishSnapshot
    rw [ensures_get_bind]
    split
    · apply (request_ensures .endSnapshot _).mpr
      rw [ensures_bind,ensures_raise]
      have ended := perform_silent gone (wire.choices.headD Publisher.lost) () wire.server rfl rfl wire.choices.tail
      split
      · rw [ensures_modify]
        apply ensures_then (confirms _ ended.session _)
        rintro (e | _) after final silent
        · exact ⟨silent.session,silent.confirmed.trans ended.confirmed⟩
        · exact ⟨silent.session,silent.confirmed.trans ended.confirmed⟩
      · exact ended
    · rw [ensures_pure]
      apply ensures_then (confirms wire gone _)
      rintro (e | _) after final silent
      · exact silent
      · exact silent
  · exact ⟨gone,rfl⟩

end Silent

lemma call_ensures (method : Nat → Method α) (input state)
    (holds : (method (input.length + 1)).Ensures (publisher.reply setup) Anywhere post state.self
        ⟨input,state.server⟩) :
    ∃ choices, post (publisher.call setup method input state).1 (publisher.call setup method input state).2.self
        ⟨choices,(publisher.call setup method input state).2.server⟩ :=
  ⟨_,Prog.exec_ensures _ _ holds ()⟩

lemma called_ensures {state after : State} (method : Nat → Method α)
    (called : publisher.call setup method input state = (result,after))
    (holds : (method (input.length + 1)).Ensures (publisher.reply setup) Anywhere post state.self
        ⟨input,state.server⟩) :
    ∃ choices, post result after.self ⟨choices,after.server⟩ := by
  have contract := call_ensures method input state holds
  rwa [called] at contract

end Oxidant.Cdc
