import Oxidant.Cdc.Publisher
import Oxidant.Lib.Window

/-! One read of the stream: the events it returns are those of the transactions that ended past its
start and by its end, however the publisher paced it and wherever it stopped, whatever relations the
source had seen before. -/
namespace Oxidant.Cdc
open PostgresCdcSource List

variable {names : Nat → String}

structure Agree (setup : Setup) (one other : PostgresCdcSource) (oid : Nat) : Prop where
  project : ∀ tuple, one.project setup oid tuple = other.project setup oid tuple
  keys : one.keyPositions setup oid = other.keyPositions setup oid

private lemma Agree.pushRow (agree : Agree setup self other oid) (op lsn tuple) :
    self.pushRow setup oid op lsn tuple = other.pushRow setup oid op lsn tuple := by
  simp only [PostgresCdcSource.pushRow,agree.project]

private lemma Agree.pushChange (agree : Agree setup self other oid) (op lsn tuple) :
    self.pushChange setup oid op lsn tuple = other.pushChange setup oid op lsn tuple := by
  simp only [PostgresCdcSource.pushChange,agree.pushRow]

lemma changes_congr (agree : ∀ oid ∈ message.refersTo, Agree setup self other oid) :
    self.changes setup walStart message = other.changes setup walStart message := by
  cases message with
  | insert oid new => exact (agree oid mem_cons_self).pushChange _ _ _
  | update oid key old new =>
    have agree := agree oid mem_cons_self
    have moved : self.movedKey setup oid key old new = other.movedKey setup oid key old new := by
      simp only [movedKey,agree.keys,agree.project]
    simp only [changes,moved,agree.pushRow,agree.pushChange]
  | delete oid key old => exact (agree oid mem_cons_self).pushChange _ _ _
  | truncate options oids =>
    simp only [changes]
    induction oids with
    | nil => rfl
    | cons oid rest ih =>
      have here := agree oid mem_cons_self
      have ih := ih fun oid mem => agree oid (mem_cons_of_mem _ mem)
      rw [flatMap_cons,flatMap_cons,here.pushChange,ih]
  | _ => rfl

def Recalls (setup : Setup) (self : PostgresCdcSource) (relation : Relation) : Prop :=
  Agree setup self (({} : PostgresCdcSource).remember setup relation) relation.oid

def Named (names : Nat → String) (self : PostgresCdcSource) : Prop :=
  ∀ oid relation, self.relations[oid]? = some relation → relation.qualified = names oid

lemma Named.remember (named : Named names self) (own : relation.qualified = names relation.oid) :
    Named names (self.remember setup relation) := by
  unfold PostgresCdcSource.remember
  split
  · exact named
  · intro oid found there
    simp only [Std.ExtTreeMap.getElem?_insert] at there
    split at there
    · next same =>
      have same := Std.LawfulEqOrd.eq_of_compare same
      simp only [Option.some.injEq] at there
      rw [← there,← same,own]
    · exact named oid found there

lemma recalls_remember (named : Named names self) (own : relation.qualified = names relation.oid) :
    Recalls setup (self.remember setup relation) relation := by
  unfold Recalls PostgresCdcSource.remember
  cases known : setup.table? relation.qualified with
  | none =>
    -- A table of another name: nothing is kept for it, before or now.
    have nothing : ∀ found, self.relations[relation.oid]? = some found → setup.table? found.qualified = none := by
      intro found there
      rw [named _ _ there,← own,known]
    constructor
    · intro tuple
      simp only [project]
      cases there : self.relations[relation.oid]? with
      | none => simp
      | some found => simp [nothing found there]
    · simp only [keyPositions]
      cases there : self.relations[relation.oid]? with
      | none => simp
      | some found => simp [nothing found there]
  | some table =>
    constructor
    · intro tuple
      simp [project]
    · simp [keyPositions]

lemma recalls_remember_other (recalls : Recalls setup self relation) (apart : shape.oid ≠ relation.oid) :
    Recalls setup (self.remember setup shape) relation := by
  have same : Agree setup (self.remember setup shape) self relation.oid := by
    unfold PostgresCdcSource.remember
    split
    · exact ⟨fun _ => rfl,rfl⟩
    · constructor
      · intro tuple
        simp [project,Std.ExtTreeMap.getElem?_insert,apart]
      · simp [keyPositions,Std.ExtTreeMap.getElem?_insert,apart]
  exact ⟨fun tuple => (same.project tuple).trans (recalls.project tuple),same.keys.trans recalls.keys⟩

private lemma recalls_fold (setup) (shapes : List Announcement) (named : Named names self)
    (own : ∀ shape ∈ shapes, shape.relation.qualified = names shape.relation.oid)
    (distinct : (shapes.map (·.relation.oid)).Nodup) :
    (∀ relation, Recalls setup self relation → relation.oid ∉ shapes.map (·.relation.oid) →
        Recalls setup (shapes.foldl (fun self shape => self.remember setup shape.relation) self) relation) ∧
    ∀ shape ∈ shapes,
      Recalls setup (shapes.foldl (fun self shape => self.remember setup shape.relation) self) shape.relation := by
  induction shapes generalizing self with
  | nil => exact ⟨fun _ recalls _ => recalls,nofun⟩
  | cons shape rest ih =>
    obtain ⟨absent,distinct⟩ := nodup_cons.mp distinct
    have here := own shape mem_cons_self
    obtain ⟨kept,rest⟩ := ih (named.remember here) (fun shape mem => own shape (mem_cons_of_mem _ mem)) distinct
    constructor
    · intro relation recalls outside
      simp only [map_cons,mem_cons,not_or] at outside
      exact kept relation (recalls_remember_other recalls (Ne.symm outside.1)) outside.2
    · intro found mem
      rcases mem_cons.mp mem with same | later
      · subst same
        exact kept _ (recalls_remember named here) absent
      · exact rest found later

lemma changes_eq_events (change : Change)
    (own : ∀ shape ∈ change.shapes, shape.relation.qualified = names shape.relation.oid)
    (recalls : ∀ shape ∈ change.shapes, Recalls setup self shape.relation) :
    self.changes setup change.walStart change.message = change.events setup := by
  apply changes_congr
  intro oid mem
  obtain ⟨shape,there,rfl⟩ := mem_map.mp (change.described oid mem)
  have here := recalls shape there
  have fold := (recalls_fold setup change.shapes
    (show Named names {} from fun _ _ found => by simp at found) own change.distinct).2 shape there
  exact ⟨fun tuple => (here.project tuple).trans (fold.project tuple).symm,here.keys.trans fold.keys.symm⟩

structure Current (setup : Setup) (names : Nat → String) (source : PostgresCdcSource)
    (session : Session) : Prop where
  named : Named names source
  recalls : ∀ relation, session.knows relation = true → Recalls setup source relation

lemma Current.kept (current : Current setup names self session) (relations : other.relations = self.relations)
    (projections : other.projections = self.projections) : Current setup names other session := by
  cases self
  cases other
  cases relations
  cases projections
  exact ⟨current.named,fun relation known =>
    ⟨(current.recalls relation known).project,(current.recalls relation known).keys⟩⟩

lemma Current.announce (current : Current setup names self session) (own : relation.qualified = names relation.oid) :
    Current setup names (self.remember setup relation)
      {session with announced := relation::session.announced} where
  named := current.named.remember own
  recalls := by
    intro found known
    unfold Session.knows at known
    by_cases same : relation.oid = found.oid
    · simp [same] at known
      subst known
      exact recalls_remember current.named own
    · have known : session.knows found = true := by
        unfold Session.knows
        simpa [same] using known
      exact recalls_remember_other (current.recalls found known) same

open Lib

variable {publisher : Publisher}

namespace Publisher

lemma ascending (publisher : Publisher) : Ascending Transaction.endLsn publisher.log :=
  publisher.ordered

variable (publisher setup)

def eventsIn (first last : Nat) : List ChangeEvent :=
  window Transaction.endLsn (Transaction.events setup) first last publisher.log

variable {publisher setup}

lemma eventsIn_append (lower : first ≤ middle) (upper : middle ≤ last) :
    publisher.eventsIn setup first middle ++ publisher.eventsIn setup middle last =
      publisher.eventsIn setup first last :=
  window_append publisher.ascending lower upper

lemma eventsIn_lsn (small : last < 2^63) (mem : event ∈ publisher.eventsIn setup first last) :
    event.lsn < Lsn.asI64 last := by
  obtain ⟨txn,among,mem⟩ := mem_flatMap.mp mem
  simp only [mem_filter,Bool.and_eq_true,decide_eq_true_eq] at among
  obtain ⟨change,there,same⟩ := txn.events_lsn mem
  have early := txn.written change there
  rw [same]
  exact Lsn.asI64_lt (by omega) small

end Publisher

def Session.untouched (session : Session) : Nat :=
  if session.inside.isSome then session.index + 1 else session.index

def Opened (publisher : Publisher) (setup : Setup) (scan : Scan) (session : Session) : Prop :=
  match session.inside with
  | none => scan.inTxn = false
  | some rest => scan.inTxn = true ∧ ∃ txn sent, publisher.log[session.index]? = some txn ∧
      txn.changes = sent ++ rest ∧ scan.openTxn = sent.flatMap (·.events setup)

/-- A read from `from` towards `stop` over a session that began at `first`. It has the events of the
completed transactions and has observed nothing of those to come. -/
structure Reading (publisher : Publisher) (setup : Setup) («from» stop first : Nat) (scan : Scan)
    (source : PostgresCdcSource) (session : Session) : Prop where
  current : Current setup publisher.names source session
  opened : Opened publisher setup scan session
  committed : scan.committed = since Transaction.endLsn (Transaction.events setup) «from»
    (publisher.log.take session.index)
  endFrom : «from» ≤ scan.end
  endCovers : ∀ txn ∈ publisher.log.take session.index, txn.events setup ≠ [] →
    txn.endLsn ≤ scan.end
  endAt : scan.end = «from» ∨ ∃ txn ∈ publisher.log.take session.index, txn.endLsn = scan.end
  observedFrom : «from» ≤ scan.observed
  ahead : ∀ txn ∈ publisher.log.drop session.untouched,
    txn.endLsn ≤ «from» ∨ scan.observed < txn.endLsn
  /-- No transaction is begun once one that ends at or past the target is complete. -/
  paced : ∀ place txn, publisher.log[place]? = some txn → stop ≤ txn.endLsn → first ≤ place →
    session.untouched ≤ place + 1 ∧ (session.index = place + 1 → stop ≤ scan.observed)

section Messages
variable {self : PostgresCdcSource}

lemma consume_content (content : message.isContent = true) :
    self.consume setup «from» walStart scan message =
      {scan with openTxn := scan.openTxn ++ self.changes setup walStart message} := by
  cases message with
  | begin | commit | relation => cases content
  | _ => rfl

lemma learn_content (content : message.isContent = true) : self.learn setup message = self := by
  cases message with
  | begin | commit | relation => cases content
  | _ => rfl

lemma learn_keeps (setup) (self : PostgresCdcSource) (message) :
    (self.learn setup message).position = self.position ∧
    (self.learn setup message).snapshotDone = self.snapshotDone ∧
    (self.learn setup message).opened = self.opened ∧
    (self.learn setup message).planned = self.planned ∧
    (self.learn setup message).streamAt = self.streamAt := by
  unfold learn
  split
  · unfold remember
    split <;> exact ⟨rfl,rfl,rfl,rfl,rfl⟩
  · exact ⟨rfl,rfl,rfl,rfl,rfl⟩

end Messages

/-- Where a read from `from` ends. Between transactions, one without events has passed over all
it observed. -/
def Scan.reach (scan : Scan) («from» : Nat) : Nat :=
  if scan.committed.isEmpty && !scan.inTxn then max scan.observed «from» else scan.end

namespace Reading
section
variable (reading : Reading publisher setup «from» stop first scan self session)
include reading

lemma weigh (bytesSeen) : Reading publisher setup «from» stop first {scan with bytesSeen} self session :=
  {reading with}

lemma observe (walEnd)
    (short : ∀ txn ∈ publisher.log.drop session.untouched, txn.endLsn ≤ «from» ∨ walEnd < txn.endLsn) :
    Reading publisher setup «from» stop first {scan with observed := max scan.observed walEnd} self session :=
  {reading with
    observedFrom := le_trans reading.observedFrom (le_max_left _ _)
    ahead := by
      intro txn mem
      rcases reading.ahead txn mem,short txn mem with ⟨old | far,old' | far'⟩
      · exact .inl old
      · exact .inl old
      · exact .inl old'
      · exact .inr (Nat.max_lt.mpr ⟨far,far'⟩)
    paced := by
      intro place txn there past began
      obtain ⟨near,done⟩ := reading.paced place txn there past began
      exact ⟨near,fun same => le_trans (done same) (le_max_left _ _)⟩ }

lemma begin (between : session.inside = none) (there : publisher.log[session.index]? = some txn)
    (short : scan.observed < stop) (sent : walEnd ≤ txn.endLsn) :
    Reading publisher setup «from» stop first
      {scan with observed := max scan.observed walEnd,inTxn := true,openTxn := []} self
      {session with inside := some txn.changes} := by
  have untouched : session.untouched = session.index := by simp [Session.untouched,between]
  have ahead := reading.ahead
  rw [untouched] at ahead
  refine {reading with
    current := ⟨reading.current.named,reading.current.recalls⟩
    opened := ⟨rfl,txn,[],there,rfl,rfl⟩
    observedFrom := le_trans reading.observedFrom (le_max_left _ _)
    ahead := ?_
    paced := ?_ }
  · intro other mem
    change other ∈ publisher.log.drop (session.index + 1) at mem
    have past := (publisher.ascending.around there).2 other mem
    rw [← tail_drop] at mem
    rcases ahead other (mem_of_mem_tail mem) with old | far
    · exact .inl old
    · exact .inr (Nat.max_lt.mpr ⟨far,by omega⟩)
  · intro place other here past began
    obtain ⟨near,done⟩ := reading.paced place other here past began
    have apart : session.index ≠ place + 1 := fun same => by omega
    change session.index + 1 ≤ place + 1 ∧ (session.index = place + 1 → _)
    exact ⟨by omega,fun same => absurd same apart⟩

lemma inside (within : session.inside = some rest) (there : publisher.log[session.index]? = some txn) (walEnd : Nat)
    (sent : walEnd ≤ txn.endLsn) :
    Reading publisher setup «from» stop first {scan with observed := max scan.observed walEnd} self session := by
  apply reading.observe
  intro other mem
  rw [show session.untouched = session.index + 1 by simp [Session.untouched,within]] at mem
  have past := (publisher.ascending.around there).2 other mem
  exact .inr (by omega)

lemma announce (own : relation.qualified = publisher.names relation.oid) :
    Reading publisher setup «from» stop first scan (self.remember setup relation)
      {session with announced := relation::session.announced} :=
  {reading with
    current := reading.current.announce own
    opened := by
      have opened := reading.opened
      exact opened }

lemma change {change : Change} (within : session.inside = some (change::rest))
    (own : ∀ shape ∈ change.shapes, shape.relation.qualified = publisher.names shape.relation.oid)
    (known : ∀ shape ∈ change.shapes, session.knows shape.relation = true) :
    Reading publisher setup «from» stop first
      {scan with openTxn := scan.openTxn ++ self.changes setup change.walStart change.message} self
      {session with inside := some rest} := by
  have events := changes_eq_events change own fun shape mem =>
    reading.current.recalls shape.relation (known shape mem)
  have untouched : ({session with inside := some rest} : Session).untouched =
      session.untouched := by simp [Session.untouched,within]
  have opened := reading.opened
  simp only [Opened,within] at opened
  obtain ⟨inTxn,txn,sent,there,split,taken⟩ := opened
  refine {reading with
    current := ⟨reading.current.named,reading.current.recalls⟩
    opened := ?_
    ahead := by rw [untouched]; exact reading.ahead
    paced := by rw [untouched]; exact reading.paced }
  refine ⟨inTxn,txn,sent ++ [change],there,by simp [split],?_⟩
  simp [taken,events]

lemma commit (within : session.inside = some [])
    (there : publisher.log[session.index]? = some txn) :
    Reading publisher setup «from» stop first
      (if txn.endLsn ≤ «from» then
        {scan with observed := max scan.observed txn.endLsn,inTxn := false,openTxn := []}
      else {scan with
        observed := max scan.observed txn.endLsn
        inTxn := false
        openTxn := []
        committed := scan.committed ++ scan.openTxn.map fun event =>
          {event with tsMicros := some (txn.commitTime + pgEpochUnixMicros)}
        «end» := txn.endLsn}) self
      {session with index := session.index + 1,inside := none} := by
  have untouched : session.untouched = session.index + 1 := by simp [Session.untouched,within]
  have opened := reading.opened
  simp only [Opened,within] at opened
  obtain ⟨_,other,sent,here,split,taken⟩ := opened
  obtain rfl : other = txn := Option.some.inj (here.symm.trans there)
  have prior := (publisher.ascending.around there).1
  have next : publisher.log.take (session.index + 1) =
      publisher.log.take session.index ++ [other] := by
    rw [take_add_one,there]
    rfl
  have ahead : ∀ txn ∈ publisher.log.drop (session.index + 1),
      txn.endLsn ≤ «from» ∨ max scan.observed other.endLsn < txn.endLsn := by
    intro txn mem
    have past := (publisher.ascending.around there).2 txn mem
    have ahead := reading.ahead
    rw [untouched] at ahead
    rcases ahead txn mem with old | far
    · exact .inl old
    · exact .inr (Nat.max_lt.mpr ⟨far,past⟩)
  have paced : ∀ place txn, publisher.log[place]? = some txn → stop ≤ txn.endLsn →
      first ≤ place → session.index + 1 ≤ place + 1 ∧
        (session.index + 1 = place + 1 → stop ≤ max scan.observed other.endLsn) := by
    intro place txn found past began
    have near := (reading.paced place txn found past began).1
    rw [untouched] at near
    refine ⟨near,fun same => ?_⟩
    obtain rfl : session.index = place := by omega
    obtain rfl : txn = other := Option.some.inj (found.symm.trans there)
    exact le_trans past (le_max_right _ _)
  have current : Current setup publisher.names self
      {session with index := session.index + 1,inside := none} :=
    ⟨reading.current.named,reading.current.recalls⟩
  split
  · next old =>
    refine
      { current
        opened := rfl
        committed := ?_
        endFrom := reading.endFrom
        endCovers := ?_
        endAt := reading.endAt.imp id fun ⟨found,mem,same⟩ => ⟨found,?_,same⟩
        observedFrom := le_trans reading.observedFrom (le_max_left _ _)
        ahead
        paced }
    · rw [next,since_snoc,if_neg (by omega),append_nil]
      exact reading.committed
    · intro found mem some
      rw [next,mem_append,mem_singleton] at mem
      rcases mem with before | rfl
      · exact reading.endCovers found before some
      · exact le_trans old reading.endFrom
    · rw [next]
      exact mem_append_left _ mem
  · next new =>
    refine
      { current
        opened := rfl
        committed := ?_
        endFrom := by change «from» ≤ other.endLsn; omega
        endCovers := ?_
        endAt := .inr ⟨other,by rw [next]; simp,rfl⟩
        observedFrom := le_trans reading.observedFrom (le_max_left _ _)
        ahead
        paced }
    · rw [next,since_snoc,if_pos (by omega),← reading.committed]
      simp [Transaction.events,taken,split]
    · intro found mem _
      rw [next,mem_append,mem_singleton] at mem
      rcases mem with before | rfl
      · exact le_of_lt (prior found before)
      · exact le_rfl

lemma deliver [Unrenamed publisher] {frame : Frame} {after : Session}
    (found : publisher.next session = some (frame,endLsn,after))
    (short : scan.inTxn = false → scan.observed < stop) (bytesSeen) :
    let next := self.consume setup «from» frame.walStart
      {scan with observed := max scan.observed frame.walEnd,bytesSeen} frame.message
    Reading publisher setup «from» stop first next (self.learn setup frame.message) after ∧
      next.observed ≤ max scan.observed endLsn ∧ next.end ≤ max scan.end endLsn := by
  have weighed := reading.weigh bytesSeen
  unfold Publisher.next at found
  cases there : publisher.log[session.index]? with
  | none => simp [there] at found
  | some txn =>
    have mem := mem_of_getElem? there
    have small := txn.sent
    cases within : session.inside with
    | none =>
      simp only [there,within,Option.some.injEq,Prod.mk.injEq] at found
      obtain ⟨rfl,rfl,rfl⟩ := found
      obtain ⟨finalLsn,time,xid,same⟩ := txn.begins
      have between : scan.inTxn = false := by
        have opened := reading.opened
        simpa only [Opened,within] using opened
      rw [same]
      refine ⟨weighed.begin within there (short between) small.1,?_,le_max_left _ _⟩
      change max scan.observed txn.begin.walEnd ≤ _
      omega
    | some rest => cases rest with
      | nil =>
        simp only [there,within,Option.some.injEq,Prod.mk.injEq] at found
        obtain ⟨rfl,rfl,rfl⟩ := found
        obtain ⟨flags,commitLsn,same⟩ := txn.commits
        rw [same]
        refine ⟨(weighed.inside within there _ small.2.1).commit within there,?_,?_⟩
        · simp only [consume]
          split <;> simp only <;> omega
        · simp only [consume]
          split <;> simp only <;> omega
      | cons change rest =>
        have opened := reading.opened
        simp only [Opened,within] at opened
        obtain ⟨_,other,sent,here,split,_⟩ := opened
        obtain rfl : other = txn := Option.some.inj (here.symm.trans there)
        have inTxn : change ∈ other.changes := by simp [split]
        have own := Unrenamed.named other mem change inTxn
        obtain ⟨changeSmall,shapesSmall⟩ := small.2.2 change inTxn
        simp only [there,within] at found
        cases missing : change.shapes.find? fun shape => !session.knows shape.relation with
        | some shape =>
          simp only [missing,Option.some.injEq,Prod.mk.injEq] at found
          obtain ⟨rfl,rfl,rfl⟩ := found
          have shaped := mem_of_find?_eq_some missing
          have bound := shapesSmall shape shaped
          rw [shape.announces]
          refine ⟨?_,?_,le_max_left _ _⟩
          · have next := (weighed.inside within there _ bound).announce (own shape shaped)
            simpa [consume,learn,changes,within] using next
          · change max scan.observed shape.walEnd ≤ _
            omega
        | none =>
          simp only [missing,Option.some.injEq,Prod.mk.injEq] at found
          obtain ⟨rfl,rfl,rfl⟩ := found
          have known : ∀ shape ∈ change.shapes, session.knows shape.relation = true := by simpa using missing
          rw [consume_content change.content,learn_content change.content]
          refine ⟨(weighed.inside within there _ changeSmall).change within own known,?_,le_max_left _ _⟩
          change max scan.observed change.walEnd ≤ _
          omega

lemma keepalive (walEnd : Nat) :
    Reading publisher setup «from» stop first
      {scan with observed := max scan.observed (publisher.sentUpTo session walEnd)} self session := by
  apply reading.observe
  intro txn mem
  unfold Publisher.sentUpTo
  cases there : publisher.log[session.index]? with
  | none =>
    have beyond := getElem?_eq_none_iff.mp there
    have : publisher.log.drop session.untouched = [] := by
      apply drop_eq_nil_of_le
      unfold Session.untouched
      split <;> omega
    rw [this] at mem
    cases mem
  | some pending =>
    have reaches := publisher.ascending.le_drop there
      (show session.index ≤ session.untouched by unfold Session.untouched; split <;> omega) mem
    dsimp only
    omega

lemma untouched_of_between (between : scan.inTxn = false) :
    session.inside = none ∧ session.untouched = session.index := by
  have opened := reading.opened
  cases within : session.inside with
  | none => exact ⟨rfl,by simp [Session.untouched,within]⟩
  | some rest =>
    simp only [Opened,within] at opened
    simp [between] at opened

lemma le_reach : «from» ≤ scan.reach «from» := by
  unfold Scan.reach
  split
  · exact le_max_right _ _
  · exact reading.endFrom

lemma behind (txn) (mem : txn ∈ publisher.log.take session.index)
    (some : txn.events setup ≠ []) : txn.endLsn ≤ scan.reach «from» := by
  unfold Scan.reach
  split
  · next empty =>
    simp only [Bool.and_eq_true,List.isEmpty_iff,Bool.not_eq_true'] at empty
    have none := reading.committed.symm.trans empty.1
    rw [since_eq_nil] at none
    have old : ¬ «from» < txn.endLsn := fun past => some (none txn mem past)
    omega
  · exact reading.endCovers txn mem some

lemma beyond (txn : Transaction) (mem : txn ∈ publisher.log.drop session.index) :
    txn.endLsn ≤ «from» ∨ scan.reach «from» < txn.endLsn := by
  unfold Scan.reach
  split
  · next empty =>
    simp only [Bool.and_eq_true,List.isEmpty_iff,Bool.not_eq_true'] at empty
    have between := (reading.untouched_of_between empty.2).2
    have ahead := reading.ahead
    rw [between] at ahead
    have low := reading.observedFrom
    rcases ahead txn mem with old | far
    · exact .inl old
    · exact .inr (by omega)
  · rcases reading.endAt with same | ⟨last,before,same⟩
    · omega
    · rw [← same]
      exact .inr (publisher.ascending.take_lt_drop before mem)

lemma committed_eq : scan.committed = publisher.eventsIn setup «from» (scan.reach «from») := by
  unfold Publisher.eventsIn
  rw [reading.committed,← window_until (publisher.log.take session.index)
    (fun txn mem some _ => reading.behind txn mem some) reading.beyond,take_append_drop]

lemma reach_commit (some : scan.committed ≠ []) : ∃ txn ∈ publisher.log, txn.endLsn = scan.reach «from» := by
  have reach : scan.reach «from» = scan.end := by
    unfold Scan.reach
    rw [if_neg (by simp [some])]
  rw [reach]
  rcases reading.endAt with same | ⟨last,before,same⟩
  · exfalso
    apply some
    rw [reading.committed_eq,reach,same]
    unfold Publisher.eventsIn
    rw [window_eq_nil]
    intro txn _ past within
    omega
  · exact ⟨last,mem_of_mem_take before,same⟩

lemma committed_upTo (there : publisher.log[place]? = some txn) (target : txn.endLsn = stop)
    (began : first ≤ place) (past : «from» < stop) (reached : stop ≤ scan.reach «from») :
    scan.committed = publisher.eventsIn setup «from» stop := by
  have near := (reading.paced place txn there (le_of_eq target.symm) began).1
  have low : session.index ≤ session.untouched := by
    unfold Session.untouched
    split <;> omega
  -- The target itself is behind the session, and nothing after it is.
  have taken : txn ∈ publisher.log.take session.index := by
    by_contra absent
    have ahead : txn ∈ publisher.log.drop session.index := by
      have mem := mem_of_getElem? there
      rw [← take_append_drop session.index publisher.log] at mem
      exact (mem_append.mp mem).resolve_left absent
    rcases reading.beyond txn ahead with old | far <;> omega
  have index : session.index = place + 1 := by
    by_contra other
    have ahead : txn ∈ publisher.log.drop session.index := by
      obtain ⟨inside,same⟩ := List.getElem?_eq_some_iff.mp there
      rw [mem_drop_iff_getElem]
      refine ⟨place - session.index,by omega,?_⟩
      rw [← same]
      congr 1
      omega
    have := publisher.ascending.take_lt_drop taken ahead
    omega
  unfold Publisher.eventsIn
  rw [reading.committed,← take_append_drop session.index publisher.log,window_until]
  · simp
  · intro other mem _ _
    rw [index,take_add_one,there,mem_append] at mem
    rcases mem with before | here
    · have := (publisher.ascending.around there).1 other before
      omega
    · simp only [Option.toList_some,mem_singleton] at here
      rw [here]
      omega
  · intro other mem
    rw [index] at mem
    have := (publisher.ascending.around there).2 other mem
    omega

end

end Reading
end Oxidant.Cdc
