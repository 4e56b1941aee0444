import Oxidant.Cdc.Reading

/-! The source's reads as it makes them over the wire: what they return, what they leave of the
source and the session, and which status updates they send on the way. -/
namespace Oxidant.Cdc
open Lib PostgresCdcSource List Act

variable {publisher : Publisher}

def Calm (choices : List WireChoice) : Prop := ∀ choice ∈ choices, choice.solicits = false

/-- What calls of the wire do to the server while its slot stays: status updates are of allowed
positions, and only where asked for. -/
structure Wired (allowed : Nat → Prop) (wire final : Wire) : Prop where
  point : final.server.point = wire.server.point
  shown : wire.server.shown ≤ final.server.shown
  confirmed : ∃ sent, final.server.confirmed = wire.server.confirmed ++ sent ∧
    ∀ lsn ∈ sent, allowed lsn
  calm : Calm wire.choices →
    Calm final.choices ∧ final.server.confirmed = wire.server.confirmed
  fewer : final.choices.length ≤ wire.choices.length

namespace Wired
lemma refl (allowed : Nat → Prop) (wire) : Wired allowed wire wire where
  point := rfl
  shown := le_rfl
  confirmed := ⟨[],by simp,nofun⟩
  calm := fun calm => ⟨calm,rfl⟩
  fewer := le_rfl

lemma mono (wired : Wired allowed wire final) (allows : ∀ lsn, allowed lsn → wider lsn) : Wired wider wire final :=
  {wired with
    confirmed := by
      obtain ⟨sent,same,all⟩ := wired.confirmed
      exact ⟨sent,same,fun lsn mem => allows lsn (all lsn mem)⟩ }

lemma trans (one : Wired allowed wire between) (other : Wired allowed between final) :
    Wired allowed wire final where
  point := other.point.trans one.point
  shown := le_trans one.shown other.shown
  confirmed := by
    obtain ⟨first,same,all⟩ := one.confirmed
    obtain ⟨second,same',all'⟩ := other.confirmed
    refine ⟨first ++ second,by rw [same',same,append_assoc],?_⟩
    intro lsn mem
    rcases mem_append.mp mem with before | after
    · exact all lsn before
    · exact all' lsn after
  calm := fun calm => by
    obtain ⟨calm,same⟩ := one.calm calm
    obtain ⟨calm,same'⟩ := other.calm calm
    exact ⟨calm,same'.trans same⟩
  fewer := le_trans other.fewer one.fewer

lemma answer (server) (point : server.point = wire.server.point) (shown : wire.server.shown ≤ server.shown)
    (confirmed : server.confirmed = wire.server.confirmed) :
    Wired allowed wire ⟨wire.choices.tail,server⟩ where
  point := point
  shown := shown
  confirmed := ⟨[],by simp [confirmed],nofun⟩
  calm := fun calm => ⟨fun choice mem => calm choice (mem_of_mem_tail mem),confirmed⟩
  fewer := by simp

lemma confirm {position : Nat} (wired : Wired allowed wire between)
    (allows : allowed position) (asked : ¬ Calm wire.choices)
    (point : server.point = between.server.point) (shown : server.shown = between.server.shown)
    (confirmed : server.confirmed = between.server.confirmed ∨
      server.confirmed = between.server.confirmed ++ [position]) :
    Wired allowed wire ⟨between.choices.tail,server⟩ where
  point := point.trans wired.point
  shown := le_trans wired.shown (le_of_eq shown.symm)
  confirmed := by
    obtain ⟨sent,same,all⟩ := wired.confirmed
    rcases confirmed with kept | more
    · exact ⟨sent,kept.trans same,all⟩
    · refine ⟨sent ++ [position],by rw [more,same,append_assoc],?_⟩
      intro lsn mem
      rcases mem_append.mp mem with before | last
      · exact all lsn before
      · rw [mem_singleton.mp last]
        exact allows
  calm := fun calm => absurd calm asked
  fewer := le_trans (by simp) wired.fewer

end Wired

/-- What a read leaves alone: the slot and the source's progress. A status update carries its
position. -/
structure Steady (source : PostgresCdcSource) (wire : Wire) (after : PostgresCdcSource)
    (final : Wire) : Prop extends Wired (fun lsn => lsn = source.position) wire final where
  position : after.position = source.position
  snapshotDone : after.snapshotDone = source.snapshotDone
  opened : source.opened = true → after.opened = true
  planned : after.planned = source.planned

namespace Steady
variable {after : PostgresCdcSource}

lemma of_wired (wired : Wired (fun lsn => lsn = self.position) wire final) : Steady self wire self final where
  toWired := wired
  position := rfl
  snapshotDone := rfl
  opened := id
  planned := rfl

lemma refl (self wire) : Steady self wire self wire :=
  .of_wired (.refl _ _)

lemma trans (one : Steady self wire middle between) (other : Steady middle between after final) :
    Steady self wire after final where
  toWired := one.toWired.trans (other.toWired.mono fun _ same => same.trans one.position)
  position := other.position.trans one.position
  snapshotDone := other.snapshotDone.trans one.snapshotDone
  opened := other.opened ∘ one.opened
  planned := other.planned.trans one.planned

lemma modify (steady : Steady self wire after final) (change : PostgresCdcSource → PostgresCdcSource)
    (position : (change after).position = after.position)
    (snapshotDone : (change after).snapshotDone = after.snapshotDone)
    (opened : after.opened = true → (change after).opened = true)
    (planned : (change after).planned = after.planned) :
    Steady self wire (change after) final :=
  {steady with
    position := position.trans steady.position
    snapshotDone := snapshotDone.trans steady.snapshotDone
    opened := opened ∘ steady.opened
    planned := planned.trans steady.planned }

lemma answer (server) (point : server.point = wire.server.point) (shown : wire.server.shown ≤ server.shown)
    (confirmed : server.confirmed = wire.server.confirmed) :
    Steady self wire self ⟨wire.choices.tail,server⟩ :=
  .of_wired (.answer server point shown confirmed)

lemma confirm (steady : Steady self wire after between) (asked : ¬ Calm wire.choices)
    (point : server.point = between.server.point) (shown : server.shown = between.server.shown)
    (confirmed : server.confirmed = between.server.confirmed ∨ server.confirmed =
    between.server.confirmed ++ [after.position]) :
    Steady self wire after ⟨between.choices.tail,server⟩ :=
  {steady with toWired := steady.toWired.confirm steady.position asked point shown confirmed}

end Steady

/-- A session the source counts on is between transactions, has announced what the source recalls,
and has nothing behind it that ended later than the source believes. -/
structure Attached (publisher : Publisher) (setup : Setup) (source : PostgresCdcSource)
    (server : Server) : Prop where
  named : Named publisher.names source
  session : ∀ place session, source.streamAt = some place → server.session = some session →
    session.inside = none ∧ Current setup publisher.names source session ∧
      ∀ txn ∈ publisher.log.take session.index, txn.events setup ≠ [] → txn.endLsn ≤ place

lemma Attached.lost (named : Named publisher.names self) (server)
    (gone : self.streamAt = none ∨ server.session = none) :
    Attached publisher setup self server where
  named := named
  session := by
    intro place session counted live
    rcases gone with gone | gone
    · rw [gone] at counted
      cases counted
    · rw [gone] at live
      cases live

lemma nextWire_cases (publisher : Publisher) (choice server) :
    (∃ e, server.session = none ∧ publisher.nextWire choice server = (.error e,server) ∨
      publisher.nextWire choice server = (.error e,Publisher.drop server)) ∨
    choice.error = none ∧ (publisher.nextWire choice server = (.ok none,server) ∨
        publisher.nextWire choice server = (.ok none,Publisher.drop server) ∨
        (∃ session walEnd replyRequested, server.session = some session ∧
          choice.pace = .keepalive walEnd replyRequested ∧
          publisher.nextWire choice server =
            (.ok (some (.keepalive (publisher.sentUpTo session walEnd) replyRequested)),
              {server with shown := max server.shown (publisher.sentUpTo session walEnd)})) ∨
        ∃ session frame endLsn after, server.session = some session ∧
          publisher.next session = some (frame,endLsn,after) ∧
          publisher.nextWire choice server = (.ok (some frame.wire),
            {server with session := some after,shown := max server.shown endLsn})) := by
  unfold Publisher.nextWire
  cases live : server.session with
  | none => exact .inl ⟨_,.inl ⟨rfl,rfl⟩⟩
  | some session => cases failed : choice.error with
    | some e => exact .inl ⟨e,.inr rfl⟩
    | none =>
      refine .inr ⟨rfl,?_⟩
      cases pace : choice.pace with
      | quiet => exact .inl rfl
      | copyDone => exact .inr (.inl rfl)
      | keepalive walEnd replyRequested => exact .inr (.inr (.inl ⟨_,_,_,rfl,rfl,rfl⟩))
      | deliver => cases found : publisher.next session with
        | none => exact .inl (by simp [found])
        | some sent =>
          obtain ⟨frame,endLsn,after⟩ := sent
          exact .inr (.inr (.inr ⟨session,frame,endLsn,after,rfl,found,by simp [found]⟩))

lemma confirm_cases (choice flushed server) :
    ((∃ sent, Publisher.confirm choice flushed server = (.ok sent,server)) ∨
      ∃ sent, Publisher.confirm choice flushed server =
        (.ok sent,{server with confirmed := server.confirmed ++ [flushed]})) ∨
    ∃ e confirmed, (confirmed = server.confirmed ∨ confirmed = server.confirmed ++ [flushed]) ∧
      Publisher.confirm choice flushed server = (.error e,{Publisher.drop server with confirmed}) := by
  unfold Publisher.confirm
  cases server.session with
  | none => exact .inl (.inl ⟨_,rfl⟩)
  | some session => cases choice.error with
    | none => exact .inl (.inr ⟨_,rfl⟩)
    | some e =>
      refine .inr ⟨e,_,?_,rfl⟩
      cases choice.landed
      · exact .inl rfl
      · exact .inr rfl

lemma confirmPosition_ensures (answered : ∀ result server, server.point = wire.server.point →
      server.shown = wire.server.shown →
      (server.confirmed = wire.server.confirmed ∨ server.confirmed = wire.server.confirmed ++ [self.position]) →
      (match result with
        | .ok _ => server.session = wire.server.session
        | .error _ => server.session = none) → post result self ⟨wire.choices.tail,server⟩) :
    confirmPosition.Ensures (publisher.reply setup) Anywhere post self wire := by
  unfold confirmPosition
  rw [ensures_get_bind,ensures_bind,ensures_request]
  refine ⟨trivial,fun _ => ?_⟩
  dsimp only
  rw [ensures_raise]
  change post (Publisher.confirm (wire.choices.headD Publisher.lost) self.position wire.server).1
    self ⟨wire.choices.tail,(Publisher.confirm (wire.choices.headD Publisher.lost) self.position wire.server).2⟩
  rcases confirm_cases (wire.choices.headD Publisher.lost) self.position wire.server with
    (⟨sent,same⟩ | ⟨sent,same⟩) | ⟨e,confirmed,either,same⟩
  · rw [same]
    exact answered _ _ rfl rfl (.inl rfl) rfl
  · rw [same]
    exact answered _ _ rfl rfl (.inr rfl) rfl
  · rw [same]
    exact answered _ _ rfl rfl either rfl

private lemma headD_mem {choices : List WireChoice} (works : (choices.headD Publisher.lost).error = none) :
    choices.headD Publisher.lost ∈ choices ∧ choices.tail.length < choices.length := by
  cases choices with
  | nil => cases works
  | cons choice rest => exact ⟨mem_cons_self,Nat.lt_succ_self _⟩

lemma nextWire_ensures {α : Type} {rest : Except Error (Option WireMessage) → Method α}
    {post : Except Error α → PostgresCdcSource → Wire → Prop}
    (failed : ∀ e server, Steady self wire self ⟨wire.choices.tail,server⟩ → server.session = none →
        (rest (.error e)).Ensures (publisher.reply setup) Anywhere post self ⟨wire.choices.tail,server⟩)
    (quiet : ∀ server, Steady self wire self ⟨wire.choices.tail,server⟩ →
        server.session = wire.server.session ∨ server.session = none →
        (rest (.ok none)).Ensures (publisher.reply setup) Anywhere post self ⟨wire.choices.tail,server⟩)
    (kept : ∀ session walEnd replyRequested, wire.server.session = some session →
        wire.choices.tail.length < wire.choices.length → (replyRequested = true → ¬ Calm wire.choices) →
        (rest (.ok (some (.keepalive (publisher.sentUpTo session walEnd) replyRequested)))).Ensures
          (publisher.reply setup) Anywhere post self
          ⟨wire.choices.tail,{wire.server with shown := max wire.server.shown (publisher.sentUpTo session walEnd)}⟩)
    (sent : ∀ session frame endLsn after, wire.server.session = some session →
        wire.choices.tail.length < wire.choices.length → publisher.next session = some (frame,endLsn,after) →
        (rest (.ok (some frame.wire))).Ensures (publisher.reply setup) Anywhere post self
          ⟨wire.choices.tail,{wire.server with session := some after,shown := max wire.server.shown endLsn}⟩) :
    (Act.request Request.nextWire >>= rest).Ensures (publisher.reply setup) Anywhere post self wire := by
  refine ⟨trivial,fun _ => ?_⟩
  change (rest (publisher.nextWire (wire.choices.headD Publisher.lost) wire.server).1).Ensures _ _ _
    self (Wire.mk wire.choices.tail (publisher.nextWire (wire.choices.headD Publisher.lost) wire.server).2)
  have unsent := @Steady.answer self wire
  rcases nextWire_cases publisher (wire.choices.headD Publisher.lost) wire.server with
    ⟨e,⟨gone,same⟩ | same⟩ | ⟨works,same | same | ⟨session,walEnd,replyRequested,live,pace,same⟩ |
      ⟨session,frame,endLsn,after,live,found,same⟩⟩
  · rw [same]
    exact failed e _ (unsent _ rfl le_rfl rfl) gone
  · rw [same]
    exact failed e _ (unsent _ rfl le_rfl rfl) rfl
  · rw [same]
    exact quiet _ (unsent _ rfl le_rfl rfl) (.inl rfl)
  · rw [same]
    exact quiet _ (unsent _ rfl le_rfl rfl) (.inr rfl)
  · rw [same]
    obtain ⟨mem,fewer⟩ := headD_mem works
    refine kept session walEnd replyRequested live fewer fun asked calm => ?_
    have calm := calm _ mem
    unfold WireChoice.solicits at calm
    rw [pace,asked,Bool.or_true] at calm
    cases calm
  · rw [same]
    exact sent session frame endLsn after live (headD_mem works).2 found

lemma takeData_ensures (frame : Frame) :
    (takeData setup «from» frame.walStart frame.walEnd frame.data scan >>= rest).Ensures (publisher.reply setup)
      Anywhere post self wire ↔
    (rest (self.consume setup «from» frame.walStart
          {scan with observed := max scan.observed frame.walEnd,bytesSeen := scan.bytesSeen + frame.data.length}
          frame.message)).Ensures (publisher.reply setup) Anywhere post (self.learn setup frame.message) wire := by
  unfold takeData
  rw [frame.decodes]
  exact Iff.rfl

lemma readFrames_ensures [Unrenamed publisher] (scan : Scan) (self : PostgresCdcSource) (wire : Wire)
    (session : Session) (enough : wire.choices.length < room)
    (reading : Reading publisher setup «from» stop first scan self session)
    (live : wire.server.session = some session ∨ wire.server.session = none)
    (seen : scan.observed ≤ max «from» wire.server.shown ∧ scan.end ≤ max «from» wire.server.shown) :
    (readFrames setup «from» stop byteBudget room scan).Ensures (publisher.reply setup) Anywhere
      (fun result after final => Steady self wire after final ∧ match result with
        | .error _ => Attached publisher setup after final.server
        | .ok scan => after.streamAt = self.streamAt ∧
          (scan.observed ≤ max «from» final.server.shown ∧ scan.end ≤ max «from» final.server.shown) ∧
          ∃ session, Reading publisher setup «from» stop first scan after session ∧
            (final.server.session = some session ∨ final.server.session = none)) self wire := by
  induction room generalizing scan self wire session with
  | zero => omega
  | succ room ih =>
    unfold readFrames
    split
    · exact ⟨.refl _ _,rfl,seen,session,reading,live⟩
    next go =>
    have short : scan.inTxn = false → scan.observed < stop := by
      intro between
      simp only [between,Bool.not_false,Bool.true_and,Bool.or_eq_true,decide_eq_true_eq] at go
      omega
    apply nextWire_ensures
    · intro e server steady gone
      refine ⟨steady.modify (fun self => {self with streamAt := none}) rfl rfl id rfl,?_⟩
      have named : Named publisher.names {self with streamAt := none} := reading.current.named
      exact .lost named _ (.inl rfl)
    · intro server steady same
      have shown : wire.server.shown ≤ server.shown := steady.shown
      refine ⟨steady,rfl,?_,session,reading,?_⟩
      · change _ ≤ max «from» server.shown ∧ _ ≤ max «from» server.shown
        omega
      rcases same with same | gone
      · rw [same]
        exact live
      · exact .inr gone
    · intro found walEnd replyRequested there fewer asked
      obtain rfl : session = found := by simpa [there,eq_comm] using live
      have reading := reading.keepalive walEnd
      have steady : Steady self wire self ⟨wire.choices.tail,{wire.server with
          shown := max wire.server.shown (publisher.sentUpTo session walEnd)}⟩ :=
        .answer _ rfl (le_max_left _ _) rfl
      have seen' : max scan.observed (publisher.sentUpTo session walEnd) ≤
          max «from» (max wire.server.shown (publisher.sentUpTo session walEnd)) ∧
          scan.end ≤ max «from» (max wire.server.shown (publisher.sentUpTo session walEnd)) := by
        omega
      dsimp only
      split
      · next replied =>
        rw [ensures_bind]
        apply confirmPosition_ensures
        intro result server point shown confirmed outcome
        have steady := steady.confirm (asked replied) point shown confirmed
        rcases result with e | sent
        · exact ⟨steady,.lost reading.current.named _ (.inr outcome)⟩
        · refine ensures_mono (ih _ _ _ session ?_ reading (.inl (outcome.trans there))
            (by rw [shown]; exact seen')) ?_
          · simp only [length_tail] at fewer ⊢
            omega
          · rintro result after final ⟨next,rest⟩
            exact ⟨steady.trans next,rest⟩
      · refine ensures_mono (ih _ _ _ session
          (by change wire.choices.tail.length < _; omega) reading (.inl there) seen') ?_
        rintro result after final ⟨next,rest⟩
        exact ⟨steady.trans next,rest⟩
    · intro found frame endLsn after there fewer next
      obtain rfl : session = found := by simpa [there,eq_comm] using live
      obtain ⟨reading,observed,ends⟩ := reading.deliver next short (scan.bytesSeen + frame.data.length)
      obtain ⟨position,snapshotDone,opened,planned,streamAt⟩ :=
        learn_keeps setup self frame.message
      have steady : Steady self wire (self.learn setup frame.message) ⟨wire.choices.tail,
          {wire.server with session := some after,shown := max wire.server.shown endLsn}⟩ :=
        (Steady.answer {wire.server with session := some after,shown := _} rfl
          (le_max_left _ _) rfl).modify (·.learn setup frame.message)
          position snapshotDone (opened.trans ·) planned
      have seen' := show _ ≤ max «from» (max wire.server.shown endLsn) ∧
          _ ≤ max «from» (max wire.server.shown endLsn) from
        ⟨le_trans observed (by omega),le_trans ends (by omega)⟩
      dsimp only [Frame.wire]
      rw [takeData_ensures]
      apply ensures_mono (ih _ _ _ after (by change wire.choices.tail.length < _; omega) reading (.inl rfl) seen')
      rintro result last final ⟨next,rest⟩
      refine ⟨steady.trans next,?_⟩
      rcases result with e | scan
      · exact rest
      · exact ⟨rest.1.trans streamAt,rest.2⟩

lemma Attached.server {server final : Server} (attached : Attached publisher setup self server)
    (kept : final.session = server.session ∨ final.session = none) :
    Attached publisher setup self final := by
  rcases kept with same | gone
  · exact ⟨attached.named,fun place session counted live =>
      attached.session place session counted (same.symm.trans live)⟩
  · exact .lost attached.named _ (.inr gone)

lemma Attached.kept {server : Server}
    (attached : Attached publisher setup self server) (relations : other.relations = self.relations)
    (projections : other.projections = self.projections) (streamAt : other.streamAt = self.streamAt) :
    Attached publisher setup other server where
  named := by
    intro oid relation found
    rw [relations] at found
    exact attached.named oid relation found
  session := by
    intro place session counted live
    rw [streamAt] at counted
    obtain ⟨between,current,behind⟩ := attached.session place session counted live
    exact ⟨between,current.kept relations projections,behind⟩

lemma request_ensures (request) (rest : Answer request → Method α) :
    (Act.request request >>= rest).Ensures (publisher.reply setup) Anywhere post self wire ↔
    (rest (publisher.answer setup (wire.choices.headD Publisher.lost) wire.server request).1).Ensures
      (publisher.reply setup) Anywhere post self
      ⟨wire.choices.tail, (publisher.answer setup (wire.choices.headD Publisher.lost) wire.server request).2⟩ := by
  exact ⟨fun holds => holds.2 (),fun holds => ⟨trivial,fun _ => holds⟩⟩

lemma perform_cases (choice server after) (value : α) :
    Publisher.perform choice server value after = (.ok value,after) ∨
      ∃ e, Publisher.perform choice server value after = (.error e,Publisher.drop server) := by
  unfold Publisher.perform
  cases choice.error with
  | none => exact .inl rfl
  | some e => exact .inr ⟨e,rfl⟩

lemma finishSnapshot_ensures (attached : Attached publisher setup self wire.server) :
    (finishSnapshot setup).Ensures (publisher.reply setup) Anywhere (fun _ after final =>
        Steady self wire after final ∧ Attached publisher setup after final.server ∧ after.streamAt = self.streamAt)
      self wire := by
  unfold finishSnapshot
  rw [ensures_get_bind]
  split
  · apply (request_ensures .endSnapshot _).mpr
    dsimp only [Publisher.answer]
    rcases perform_cases (wire.choices.headD Publisher.lost) wire.server wire.server () with
      same | ⟨e,same⟩
    · rw [same]
      have steady : Steady self wire self ⟨wire.choices.tail,wire.server⟩ :=
        .answer _ rfl le_rfl rfl
      exact ⟨steady.modify (fun self => {self with snapshotOpen := false}) rfl rfl id rfl,
        attached.kept rfl rfl rfl,rfl⟩
    · rw [same]
      exact ⟨.answer _ rfl le_rfl rfl,.lost attached.named _ (.inr rfl),rfl⟩
  · exact ⟨.refl _ _,attached,rfl⟩

lemma startIndex_behind :
    ∀ txn ∈ publisher.log.take (publisher.startIndex setup start wanted), txn.events setup ≠ [] →
      txn.endLsn ≤ start := by
  intro txn mem some
  obtain ⟨place,inside,rfl⟩ := mem_take_iff_getElem.mp mem
  have early := not_of_lt_findIdx (lt_of_lt_of_le (lt_of_lt_of_le inside (min_le_left _ _)) (min_le_right wanted _))
  simp only [Bool.and_eq_false_iff,decide_eq_false_iff_not,Bool.not_eq_false'] at early
  rcases early with old | empty
  · omega
  · exact absurd (isEmpty_iff.mp empty) some

lemma ensureStream_ensures (start : Nat) (attached : Attached publisher setup self wire.server) :
    (ensureStream setup start).Ensures (publisher.reply setup) Anywhere (fun result after final =>
        Steady self wire after final ∧ Attached publisher setup after final.server ∧
        (∀ value, result = .ok value → after.streamAt = some start)) self wire := by
  apply ensures_then (finishSnapshot_ensures attached)
  rintro (e | _) after final ⟨steady,attached,streamAt⟩
  · exact ⟨steady,attached,nofun⟩
  dsimp only
  rw [ensures_get_bind]
  split
  · next there => exact ⟨steady,attached,fun _ _ => there⟩
  apply (request_ensures (.startStream start) _).mpr
  dsimp only [Publisher.answer]
  have fresh (index : Nat) := perform_cases (final.choices.headD Publisher.lost) final.server
    {final.server with session := some {index}} ()
  have moved (session cursor) (place : Option Nat) : Steady self wire
      {after with streamAt := place} ⟨final.choices.tail,{final.server with session,cursor}⟩ :=
    steady.trans ((Steady.answer {final.server with session,cursor} rfl le_rfl rfl).modify
      (fun self => {self with streamAt := place}) rfl rfl id rfl)
  have named (place : Option Nat) : Named publisher.names {after with streamAt := place} :=
    attached.named
  rcases fresh (publisher.startIndex setup start (final.choices.headD Publisher.lost).startIndex) with same | ⟨e,same⟩
  · rw [same]
    refine ⟨moved _ _ _,⟨named _,?_⟩,fun _ _ => rfl⟩
    rintro place session counted live
    cases counted
    cases live
    exact ⟨rfl,⟨named _,fun relation known => by simp [Session.knows] at known⟩,startIndex_behind⟩
  · rw [same]
    exact ⟨moved _ _ _,.lost (named _) _ (.inl rfl),nofun⟩

/-- What a read from `from` aimed at `stop` covered: whole transactions, all there are up to its
end. -/
structure Covers (publisher : Publisher) (setup : Setup) («from» stop : Nat)
    (events : List ChangeEvent) (last : Nat) : Prop where
  lower : «from» ≤ last
  within : events = publisher.eventsIn setup «from» last
  commit : events ≠ [] → ∃ txn ∈ publisher.log, txn.endLsn = last
  upTo : ∀ txn ∈ publisher.log, txn.endLsn = stop → publisher.eventsIn setup «from» stop ≠ [] →
    stop ≤ last → events = publisher.eventsIn setup «from» stop

/-- The session is between two transactions, or the position is a commit behind it. -/
def Cut (publisher : Publisher) (server : Server) (lsn : Nat) : Prop :=
  ∀ session, server.session = some session →
    session.inside = none ∨ ∃ txn ∈ publisher.log.take session.index, txn.endLsn = lsn

namespace Reading
lemma start (current : Current setup publisher.names self session) (between : session.inside = none)
    (behind : ∀ txn ∈ publisher.log.take session.index, txn.events setup ≠ [] → txn.endLsn ≤ «from») (stop) :
    Reading publisher setup «from» stop session.index {«end» := «from»,observed := «from»} self session where
  current := current
  opened := by
    unfold Opened
    rw [between]
  committed := by
    refine (since_eq_nil.mpr fun txn mem past => ?_).symm
    by_contra some
    have := behind txn mem some
    omega
  endFrom := le_rfl
  endCovers := behind
  endAt := .inl rfl
  observedFrom := le_rfl
  ahead := fun txn _ => by
    change txn.endLsn ≤ «from» ∨ «from» < txn.endLsn
    omega
  paced := by
    intro place txn _ _ began
    have : session.untouched = session.index := by simp [Session.untouched,between]
    exact ⟨by omega,fun same => by omega⟩

lemma covers (reading : Reading publisher setup «from» stop first scan self session)
    (behind : ∀ txn ∈ publisher.log.take first, txn.events setup ≠ [] → txn.endLsn ≤ «from») :
    Covers publisher setup «from» stop scan.committed (scan.reach «from») where
  lower := reading.le_reach
  within := reading.committed_eq
  commit := reading.reach_commit
  upTo := by
    intro txn mem target some reached
    obtain ⟨place,there⟩ := mem_iff_getElem?.mp mem
    have wanted : ¬ ∀ txn ∈ publisher.log, «from» < txn.endLsn → txn.endLsn ≤ stop →
        txn.events setup = [] := fun none => some (window_eq_nil.mpr none)
    push Not at wanted
    obtain ⟨found,among,past,within,nonempty⟩ := wanted
    refine reading.committed_upTo there target ?_ (by omega) reached
    -- Were the target behind the session's start, so would be the transaction found.
    by_contra early
    have before : txn ∈ publisher.log.take first := by
      obtain ⟨inside,same⟩ := List.getElem?_eq_some_iff.mp there
      exact mem_take_iff_getElem.mpr ⟨place,by omega,same⟩
    have old : found ∈ publisher.log.take first := by
      rw [← take_append_drop first publisher.log,mem_append] at among
      refine among.resolve_right fun later => ?_
      have := publisher.ascending.take_lt_drop before later
      omega
    have := behind found old nonempty
    omega

lemma cut (reading : Reading publisher setup «from» stop first scan self session)
    (live : server.session = some session ∨ server.session = none) :
    scan.reach «from» = «from» ∨ Cut publisher server (scan.reach «from») := by
  unfold Scan.reach
  split
  · next empty =>
    simp only [Bool.and_eq_true,Bool.not_eq_true'] at empty
    refine .inr fun found there => .inl ?_
    obtain rfl : session = found := by simpa [there,eq_comm] using live
    exact (reading.untouched_of_between empty.2).1
  · rcases reading.endAt with same | last
    · exact .inl same
    · refine .inr fun found there => .inr ?_
      obtain rfl : session = found := by simpa [there,eq_comm] using live
      exact last

end Reading

lemma settle_ensures (lower : «from» ≤ scan.end)
    (settled : post (.ok (scan.committed,scan.reach «from»))
        {self with streamAt := if scan.inTxn then none else some (scan.reach «from»)} wire) :
    (settle «from» scan).Ensures (publisher.reply setup) Anywhere post self wire := by
  unfold settle
  rw [ensures_bind,ensures_modify]
  unfold Scan.reach at settled
  dsimp only
  split
  · next empty =>
    simp only [empty,if_true] at settled
    simp only [Bool.and_eq_true,Bool.not_eq_true'] at empty
    simp only [empty.2,Bool.false_eq_true,if_false] at settled
    exact settled
  · next full =>
    rw [if_neg full] at settled
    rw [Nat.max_eq_left lower]
    exact settled

lemma readForward_ensures [Unrenamed publisher] («from» stop byteBudget : Nat)
    (attached : Attached publisher setup self wire.server) (enough : wire.choices.length < room) :
    (readForward setup room «from» stop byteBudget).Ensures (publisher.reply setup) Anywhere
      (fun result after final =>
          Steady self wire after final ∧ Attached publisher setup after final.server ∧
          ∀ events last, result = .ok (events,last) →
            Covers publisher setup «from» stop events last ∧ last ≤ max «from» final.server.shown ∧
              (last = «from» ∨ Cut publisher final.server last)) self wire := by
  apply ensures_then (ensureStream_ensures «from» attached)
  rintro (e | _) after final ⟨steady,attached,streamAt⟩
  · exact ⟨steady,attached,nofun⟩
  rw [ensures_bind]
  -- Over a lost connection the read is one of a session that has sent nothing.
  obtain ⟨session,live,between,current,behind⟩ : ∃ session : Session,
      (final.server.session = some session ∨ final.server.session = none) ∧
      session.inside = none ∧ Current setup publisher.names after session ∧
      ∀ txn ∈ publisher.log.take session.index, txn.events setup ≠ [] → txn.endLsn ≤ «from» := by
    cases there : final.server.session with
    | some session => exact ⟨session,.inl rfl,attached.session _ _ (streamAt () rfl) there⟩
    | none => exact ⟨{index := 0},.inr rfl,rfl,
        ⟨attached.named,fun relation known => by simp [Session.knows] at known⟩,by simp⟩
  refine ensures_mono (readFrames_ensures _ after final session
    (lt_of_le_of_lt steady.fewer enough) (Reading.start current between behind stop) live
    ⟨le_max_left _ _,le_max_left _ _⟩) ?_
  rintro (e | scan) last ending ⟨more,rest⟩
  · exact ⟨steady.trans more,rest,nofun⟩
  obtain ⟨_,seen,session,reading,live⟩ := rest
  refine settle_ensures reading.endFrom ⟨(steady.trans more).modify
    (fun self => {self with streamAt := _}) rfl rfl id rfl,?_,?_⟩
  · constructor
    · exact reading.current.named
    intro place found counted there
    obtain rfl : session = found := by simpa [there,eq_comm] using live
    cases open_ : scan.inTxn with
    | true => simp [open_] at counted
    | false =>
      simp only [open_,Bool.false_eq_true,if_false,Option.some.injEq] at counted
      obtain rfl := counted
      exact ⟨(reading.untouched_of_between open_).1,reading.current.kept rfl rfl,reading.behind⟩
  · intro events place done
    cases done
    refine ⟨reading.covers behind,?_,reading.cut live⟩
    unfold Scan.reach
    split <;> omega

end Oxidant.Cdc
