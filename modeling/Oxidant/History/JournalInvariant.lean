import Mathlib.Data.Finset.Range
import Oxidant.History.JournalDisk

/-! What keeps acknowledged records: such a record is in the durable part of a file
no pending swap is about to unlink, or a newer record of its statement is; compaction folds the
files it replaces into the generation before it unlinks them. -/
namespace Oxidant.History
open List hiding after count rec
open Lib Lib.Keyed

namespace JournalRecord

/-- Statements never share a submit sequence, and a snapshot never shares its write sequence within
its statement. -/
def Apart (one other : JournalRecord) : Prop :=
  one.kind ≠ .tombstone → other.kind ≠ .tombstone → (one.id ≠ other.id → one.seq ≠ other.seq) ∧
    (one.id = other.id → one.kind = .snapshot ∨ other.kind = .snapshot → one.writeSeq ≠ other.writeSeq)

instance (one other : JournalRecord) : Decidable (one.Apart other) := by
  unfold Apart
  infer_instance

def Terminal (rec : JournalRecord) : Prop :=
  rec.kind = .snapshot ∧ ∃ status ∈ rec.status, status.isTerminal = true

end JournalRecord

def Fold.Includes (fold : Fold) (rec : JournalRecord) : Prop :=
  ∃ st ∈ fold.statements, st.id = rec.id ∧
    (rec.foldKey < st.foldKey ∨ rec.foldKey = st.foldKey ∧ some st.status = rec.status)

def Untouched (appended : List JournalRecord) (id : String) : Prop :=
  ∀ tomb ∈ appended, tomb.kind = .tombstone → tomb.id ≠ id

def Origin (appended : List JournalRecord) (id : String) (seq : Nat) : Prop :=
  ∃ rec ∈ appended, rec.kind ≠ .tombstone ∧ rec.id = id ∧ rec.seq = seq

/-- A record of the statement was written under this sequence, and its status, if any, is the known
one. -/
def Written (appended : List JournalRecord) (id : String) (writeSeq : Nat) (status : Option StatementStatus) : Prop :=
  ∃ rec ∈ appended, rec.kind ≠ .tombstone ∧ rec.id = id ∧ rec.writeSeq = writeSeq ∧
    ∀ known ∈ rec.status, status = some known

def JournalRecord.Descends (appended : List JournalRecord) (rec : JournalRecord) : Prop :=
  (rec.kind = .tombstone → ¬Untouched appended rec.id) ∧
  (rec.kind ≠ .tombstone → Origin appended rec.id rec.seq ∧ Written appended rec.id rec.writeSeq rec.status)

def FoldedStatement.Descends (appended : List JournalRecord) (st : FoldedStatement) : Prop :=
  Origin appended st.id st.seq ∧ Written appended st.id st.lastSeq (some st.status)

section Descent
lemma Untouched.of_cons {rec : JournalRecord} {id : String}
    (untouched : Untouched (rec::appended) id) : Untouched appended id :=
  fun tomb mem => untouched tomb (mem_cons_of_mem _ mem)

lemma Origin.cons {id : String} {seq : Nat} (origin : Origin appended id seq)
    (rec) : Origin (rec::appended) id seq := by
  obtain ⟨first,mem,rest⟩ := origin
  exact ⟨first,mem_cons_of_mem _ mem,rest⟩

lemma Written.cons {id : String} {seq : Nat} (written : Written appended id seq status) (rec) :
    Written (rec::appended) id seq status := by
  obtain ⟨last,mem,rest⟩ := written
  exact ⟨last,mem_cons_of_mem _ mem,rest⟩

lemma JournalRecord.Descends.cons {rec : JournalRecord} (descends : rec.Descends appended)
    (other) : rec.Descends (other::appended) := by
  refine ⟨fun tomb untouched => descends.1 tomb untouched.of_cons,fun kept => ?_⟩
  obtain ⟨origin,written⟩ := descends.2 kept
  exact ⟨origin.cons other,written.cons other⟩

lemma Written.getD {id : String} {seq : Nat} (written : Written appended id seq status) (other) :
    Written appended id seq (some (status.getD other)) := by
  obtain ⟨last,mem,kept,same,at_,known⟩ := written
  refine ⟨last,mem,kept,same,at_,fun status_ there => ?_⟩
  rw [known status_ there]
  rfl

lemma FoldedStatement.Descends.ofRecord {rec : JournalRecord} (kept : rec.kind ≠ .tombstone)
    (descends : rec.Descends appended) : (ofRecord rec).Descends appended := by
  obtain ⟨origin,written⟩ := descends.2 kept
  exact ⟨origin,written.getD .pending⟩

variable {st : FoldedStatement}

lemma FoldedStatement.Descends.fold {rec : JournalRecord} (same : rec.id = st.id) (kept : rec.kind ≠ .tombstone)
    (before : st.Descends appended) (descends : rec.Descends appended) : (st.fold rec).Descends appended := by
  unfold FoldedStatement.fold
  split
  · exact before
  · refine ⟨before.1,?_⟩
    have written := (descends.2 kept).2.getD st.status
    rwa [same] at written

lemma FoldedStatement.Descends.toSnapshot (descends : st.Descends appended) : st.toSnapshot.Descends appended :=
  ⟨nofun,fun _ => descends⟩

lemma Fold.descends {recs : List JournalRecord} (lines : ∀ rec ∈ recs, rec.Descends appended)
    (mem : st ∈ (({} : Fold).all recs).statements) : st.Descends appended :=
  Fold.statements_induction (fun _ kept => .ofRecord kept)
    (fun _ _ same kept before => .fold same kept before) lines mem

end Descent

def LogFile.Holds {α : Type} (codec : Codec α) (log : LogFile α) (rec : JournalRecord) : Prop :=
  ∃ recs, codec.text recs <+: log.content ∧ (codec.text recs).length ≤ log.synced ∧
    ∃ newer ∈ recs, newer.id = rec.id ∧ rec.foldKey ≤ newer.foldKey

namespace JournalDisk
variable (codec : Codec α)

def Marked (disk : JournalDisk α) (file : JournalFile) : Prop :=
  ∃ entry ∈ disk.markers, file ∈ entry.2

def HeldIn (disk : JournalDisk α) (rec : JournalRecord) (file : JournalFile) : Prop :=
  ¬disk.Marked file ∧ ∃ log, disk.find file = some log ∧ log.linked = true ∧ log.Holds codec rec

structure Sound (appended : List JournalRecord) (disk : JournalDisk α) : Prop where
  whole : ∀ entry ∈ disk.files, ∃ recs, entry.2.content = codec.text recs ∧
    ∀ rec ∈ recs, rec.Descends appended
  known : ∀ rec ∈ disk.acked, rec ∈ appended
  held : ∀ rec ∈ disk.acked, Untouched appended rec.id → ∃ file, disk.HeldIn codec rec file
  newer : ∀ index, disk.Marked (.generation index) → ∃ later log, index < later ∧
    disk.find (.generation later) = some log ∧ log.linked = true ∧ ¬disk.Marked (.generation later)

structure Ready (appended : List JournalRecord) (segment : Nat) (opened : Bool)
    (disk : JournalDisk α) : Prop where
  sound : disk.Sound codec appended
  below : ∀ index, disk.Marked (.segment index) → index < segment
  present : opened = true → ∃ log, disk.find (.segment segment) = some log ∧ log.linked = true

variable {codec} {appended : List JournalRecord} {disk : JournalDisk α} {segment : Nat}
  {opened : Bool} {rec : JournalRecord} {file : JournalFile}

lemma Marked.of_removeMarker (marked : (disk.removeMarker index).Marked file) : disk.Marked file := by
  obtain ⟨entry,mem,inside⟩ := marked
  exact ⟨entry,(mem_filter.mp mem).1,inside⟩

lemma marked_putMarker (marked : (disk.putMarker index inputs).Marked file) : disk.Marked file ∨ file ∈ inputs := by
  obtain ⟨entry,mem,inside⟩ := marked
  rcases mem_append.mp mem with old | new
  · exact .inl (Marked.of_removeMarker ⟨entry,old,inside⟩)
  · obtain rfl := mem_singleton.mp new
    exact .inr inside

lemma marked_of_marker (mem : file ∈ (disk.marker index).getD []) : disk.Marked file := by
  unfold marker at mem
  cases found : disk.markers.find? fun entry => entry.1 = index with
  | none => simp [found] at mem
  | some entry =>
    rw [found] at mem
    exact ⟨entry,mem_of_find?_eq_some found,mem⟩

lemma mem_contents [DecidableEq α] (held : disk.HeldIn codec rec file) :
    ∃ newer ∈ disk.contents codec file, newer.id = rec.id ∧ rec.foldKey ≤ newer.foldKey := by
  obtain ⟨_,log,found,_,recs,⟨rest,split⟩,_,newer,mem,same,later⟩ := held
  refine ⟨newer,?_,same,later⟩
  simp only [contents,found,Option.elim_some]
  rw [← split,codec.scan_text]
  exact mem_append_left _ mem

namespace Sound

lemma whole_find (sound : disk.Sound codec appended) (found : disk.find file = some log) :
    ∃ recs, log.content = codec.text recs ∧ ∀ rec ∈ recs, rec.Descends appended :=
  sound.whole _ (find_mem found)

lemma cons (sound : disk.Sound codec appended) (rec) : disk.Sound codec (rec::appended) where
  whole entry mem := by
    obtain ⟨recs,same,lines⟩ := sound.whole entry mem
    exact ⟨recs,same,fun line there => (lines line there).cons rec⟩
  known other mem := mem_cons_of_mem _ (sound.known other mem)
  held other mem untouched := sound.held other mem untouched.of_cons
  newer := sound.newer

variable [DecidableEq α]

lemma legible (sound : disk.Sound codec appended) : disk.Legible codec := by
  intro file log found
  obtain ⟨recs,same,_⟩ := sound.whole_find found
  rw [same,codec.scan_lines_text]

lemma contents_descends (sound : disk.Sound codec appended)
    (mem : line ∈ disk.contents codec file) : line.Descends appended := by
  unfold contents at mem
  cases found : disk.find file with
  | none => simp [found] at mem
  | some log =>
    obtain ⟨recs,same,lines⟩ := sound.whole_find found
    rw [found,Option.elim_some,same,codec.scan_lines_text] at mem
    exact lines line mem

lemma lines_descend (sound : disk.Sound codec appended) (files : List JournalFile) :
    ∀ line ∈ files.flatMap (disk.contents codec), line.Descends appended := by
  intro line mem
  obtain ⟨file,_,inside⟩ := mem_flatMap.mp mem
  exact sound.contents_descends inside

lemma read_covers (sound : disk.Sound codec appended) {files : List JournalFile}
    (mem : file ∈ files) (held : disk.HeldIn codec rec file)
    (untouched : Untouched appended rec.id) :
    ∃ st ∈ (({} : Fold).all (files.flatMap (disk.contents codec))).statements,
      st.id = rec.id ∧ rec.foldKey ≤ st.foldKey := by
  obtain ⟨newer,inside,same,later⟩ := mem_contents held
  have kept : ∀ line ∈ files.flatMap (disk.contents codec), line.kind = .tombstone → line.id ≠ newer.id := by
    intro line there tomb clash
    apply (sound.lines_descend files line there).1 tomb
    rwa [clash,same]
  obtain ⟨st,there,at_,newest⟩ := Fold.covers (mem_flatMap.mpr ⟨file,mem,inside⟩) kept
  exact ⟨st,there,at_.trans same,later.trans newest⟩

end Sound

lemma Ready.cons (ready : disk.Ready codec appended segment opened) (rec) :
    disk.Ready codec (rec::appended) segment opened :=
  ⟨ready.sound.cons rec,ready.below,ready.present⟩

/-- Every linked file that is not marked stays with what it held, no other file is marked, and files
have whole lines of known records. -/
structure Keeps (codec : Codec α) (appended : List JournalRecord) (disk after : JournalDisk α) :
    Prop where
  marks : ∀ file, after.Marked file → disk.Marked file
  files : ∀ file log, disk.find file = some log → log.linked = true → ¬disk.Marked file →
    ∃ log', after.find file = some log' ∧ log'.linked = true ∧
      ∀ rec, log.Holds codec rec → log'.Holds codec rec
  whole : ∀ entry ∈ after.files, ∃ recs, entry.2.content = codec.text recs ∧
    ∀ rec ∈ recs, rec.Descends appended
  acked : ∀ rec ∈ after.acked, rec ∈ disk.acked

namespace Keeps
variable (keeps : Keeps codec appended disk after)
include keeps

lemma held (held : disk.HeldIn codec rec file) : after.HeldIn codec rec file := by
  obtain ⟨free,log,found,linked,holds⟩ := held
  obtain ⟨log',found',linked',more⟩ := keeps.files file log found linked free
  exact ⟨fun marked => free (keeps.marks file marked),log',found',linked',more rec holds⟩

lemma sound (sound : disk.Sound codec appended) : after.Sound codec appended where
  whole := keeps.whole
  known rec mem := sound.known rec (keeps.acked rec mem)
  held rec mem untouched := by
    obtain ⟨file,held⟩ := sound.held rec (keeps.acked rec mem) untouched
    exact ⟨file,keeps.held held⟩
  newer index marked := by
    obtain ⟨later,log,above,found,linked,free⟩ := sound.newer index (keeps.marks _ marked)
    obtain ⟨log',found',linked',_⟩ := keeps.files _ log found linked free
    exact ⟨later,log',above,found',linked',fun again => free (keeps.marks _ again)⟩

lemma ready (ready : disk.Ready codec appended segment opened) : after.Ready codec appended segment opened where
  sound := keeps.sound ready.sound
  below index marked := ready.below index (keeps.marks _ marked)
  present open_ := by
    obtain ⟨log,found,linked⟩ := ready.present open_
    obtain ⟨log',found',linked',_⟩ := keeps.files _ log found linked fun marked =>
      lt_irrefl _ (ready.below segment marked)
    exact ⟨log',found',linked'⟩

end Keeps

lemma Sound.keeps (sound : disk.Sound codec appended) (files : after.files = disk.files)
    (marks : ∀ file, after.Marked file → disk.Marked file)
    (acked : ∀ rec ∈ after.acked, rec ∈ disk.acked) : Keeps codec appended disk after where
  marks := marks
  files file log found linked _ := by
    refine ⟨log,?_,linked,fun _ holds => holds⟩
    unfold find
    rwa [files]
  whole := files ▸ sound.whole
  acked := acked

lemma Ready.mapWhere (chosen : JournalFile → Prop) [DecidablePred chosen]
    (ready : disk.Ready codec appended segment opened) (change : LogFile α → LogFile α)
    (linked : ∀ log, log.linked = true → (change log).linked = true)
    (holds : ∀ log rec, log.Holds codec rec → (change log).Holds codec rec)
    (whole : ∀ log recs, log.content = codec.text recs → (∀ rec ∈ recs, rec.Descends appended) →
      ∃ recs, (change log).content = codec.text recs ∧ ∀ rec ∈ recs, rec.Descends appended) :
    ({disk with files := disk.files.map fun entry => if chosen entry.1 then (entry.1,change entry.2) else entry} :
      JournalDisk α).Ready codec appended segment opened := by
  apply Keeps.ready _ ready
  refine ⟨fun _ => id,fun file log found link _ => ?_,fun entry mem => ?_,fun _ => id⟩
  · rw [find_mapWhere,found]
    split
    · exact ⟨_,rfl,linked log link,fun rec => holds log rec⟩
    · exact ⟨_,rfl,link,fun _ => id⟩
  · obtain ⟨before,there,rfl⟩ := mem_map.mp mem
    obtain ⟨recs,same,lines⟩ := ready.sound.whole before there
    split
    · exact whole before.2 recs same lines
    · exact ⟨recs,same,lines⟩

lemma Sound.ready (sound : disk.Sound codec appended) : ∃ segment, disk.Ready codec appended segment false := by
  obtain ⟨bound,within⟩ := Finset.exists_nat_subset_range
    ((disk.markers.flatMap Prod.snd).filterMap JournalFile.segmentIndex?).toFinset
  refine ⟨bound,sound,?_,nofun⟩
  rintro index ⟨entry,mem,inside⟩
  apply Finset.mem_range.mp (within (mem_toFinset.mpr _))
  exact mem_filterMap.mpr ⟨_,mem_flatMap.mpr ⟨entry,mem,inside⟩,rfl⟩

section
variable (ready : disk.Ready codec appended segment opened)
include ready

lemma Ready.syncDir (dir : JournalDir) : (disk.syncDir dir).Ready codec appended segment opened :=
  ready.mapWhere (·.dir = dir) _ (fun _ _ => rfl) (fun _ _ => id) fun _ recs same lines => ⟨recs,same,lines⟩

lemma Ready.remove (marked : disk.Marked file) : (disk.remove file).Ready codec appended segment opened := by
  apply Keeps.ready _ ready
  refine ⟨fun _ => id,fun other log found linked free => ?_,fun entry mem => ?_,fun _ => id⟩
  · refine ⟨log,?_,linked,fun _ holds => holds⟩
    have apart : other ≠ file := fun same => free (same ▸ marked)
    rw [find_remove,if_neg apart,found]
  · exact ready.sound.whole entry (mem_filter.mp mem).1

lemma Ready.unmark {markers : List (Nat × List JournalFile)}
    (fewer : ∀ file, ({disk with markers} : JournalDisk α).Marked file → disk.Marked file) :
    ({disk with markers} : JournalDisk α).Ready codec appended segment opened :=
  Keeps.ready (ready.sound.keeps rfl fewer fun _ => id) ready

lemma Ready.removeMarker (index : Nat) : (disk.removeMarker index).Ready codec appended segment opened :=
  ready.unmark fun _ => Marked.of_removeMarker

lemma Ready.createMarker (index : Nat) : (disk.putMarker index []).Ready codec appended segment opened := by
  apply ready.unmark
  intro file marked
  rcases marked_putMarker marked with before | inside
  · exact before
  · cases inside

end

/-- The files of a pass are held elsewhere, in the newest generation or in younger segments. -/
structure Replaced (codec : Codec α) (appended : List JournalRecord) (segment index : Nat)
    (inputs : List JournalFile) (disk : JournalDisk α) : Prop where
  held : ∀ rec ∈ disk.acked, Untouched appended rec.id →
    ∃ file ∉ inputs, disk.HeldIn codec rec file
  there : ∃ log, disk.find (.generation index) = some log ∧ log.linked = true
  latest : ∀ other, (disk.find (.generation other)).isSome → other ≤ index
  older : ∀ other, .generation other ∈ inputs → other < index
  sealed : ∀ other, .segment other ∈ inputs → other < segment

lemma Replaced.fresh (replaced : disk.Replaced codec appended segment index inputs)
    (sound : disk.Sound codec appended) : ¬disk.Marked (.generation index) := by
  intro marked
  obtain ⟨later,log,above,found,_⟩ := sound.newer index marked
  exact absurd (replaced.latest later (by simp [found])) (not_le.mpr above)

lemma Replaced.createMarker (replaced : disk.Replaced codec appended segment index inputs) :
    (disk.putMarker index []).Replaced codec appended segment index inputs where
  held := by
    intro rec mem untouched
    obtain ⟨file,outside,held⟩ := replaced.held rec mem untouched
    refine ⟨file,outside,fun marked => held.1 ?_,held.2⟩
    rcases marked_putMarker marked with before | inside
    · exact before
    · cases inside
  there := replaced.there
  latest := replaced.latest
  older := replaced.older
  sealed := replaced.sealed

section
variable (ready : disk.Ready codec appended segment opened)
include ready

lemma Ready.writeMarker (replaced : disk.Replaced codec appended segment index inputs) :
    (disk.putMarker index inputs).Ready codec appended segment opened where
  sound := {
    whole := ready.sound.whole
    known := ready.sound.known
    held := by
      intro rec mem untouched
      obtain ⟨file,outside,held⟩ := replaced.held rec mem untouched
      refine ⟨file,fun marked => ?_,held.2⟩
      rcases marked_putMarker marked with before | inside
      · exact held.1 before
      · exact outside inside
    newer := by
      intro other marked
      obtain ⟨log,found,linked⟩ := replaced.there
      refine ⟨index,log,?_,found,linked,?_⟩
      · rcases marked_putMarker marked with before | inside
        · obtain ⟨later,log,above,found,_⟩ := ready.sound.newer other before
          exact above.trans_le (replaced.latest later (by simp [found]))
        · exact replaced.older other inside
      · intro again
        rcases marked_putMarker again with before | inside
        · exact replaced.fresh ready.sound before
        · exact absurd (replaced.older index inside) (lt_irrefl _)}
  below := by
    intro other marked
    rcases marked_putMarker marked with before | inside
    · exact ready.below other before
    · exact replaced.sealed other inside
  present := ready.present

lemma Ready.congr {disk' : JournalDisk α} (files : disk'.files = disk.files)
    (markers : disk'.markers = disk.markers) (acked : disk'.acked = disk.acked) :
    disk'.Ready codec appended segment opened := by
  refine (ready.sound.keeps files (fun file marked => ?_) (acked ▸ fun _ => id)).ready ready
  unfold Marked at marked ⊢
  rwa [← markers]

lemma Ready.put {log : LogFile α} {recs : List JournalRecord} (vacant : disk.find file = none)
    (same : log.content = codec.text recs) (lines : ∀ rec ∈ recs, rec.Descends appended) :
    (disk.put file log).Ready codec appended segment opened := by
  apply Keeps.ready _ ready
  refine ⟨fun _ => id,fun other log found linked _ => ?_,fun entry mem => ?_,fun _ => id⟩
  · refine ⟨log,?_,linked,fun _ holds => holds⟩
    rw [find_put,if_neg,found]
    rintro rfl
    simp [vacant] at found
  · rcases mem_append.mp mem with old | new
    · exact ready.sound.whole entry (mem_filter.mp old).1
    · obtain rfl := mem_singleton.mp new
      exact ⟨recs,same,lines⟩

lemma Ready.filterAcked :
    ({disk with acked := disk.acked.filter keep} : JournalDisk α).Ready codec appended segment opened :=
  Keeps.ready (ready.sound.keeps rfl (fun _ => id) fun _ mem => (mem_filter.mp mem).1) ready

lemma Ready.ack (known : rec ∈ appended) (held : Untouched appended rec.id → ∃ file, disk.HeldIn codec rec file) :
    ({disk with acked := rec::disk.acked} : JournalDisk α).Ready codec appended segment opened where
  sound := {
    whole := ready.sound.whole
    known := by
      intro other mem
      rcases mem_cons.mp mem with rfl | before
      · exact known
      · exact ready.sound.known other before
    held := by
      intro other mem untouched
      rcases mem_cons.mp mem with rfl | before
      · exact held untouched
      · exact ready.sound.held other before untouched
    newer := ready.sound.newer}
  below := ready.below
  present := ready.present

lemma Ready.shut : disk.Ready codec appended segment false :=
  ⟨ready.sound,ready.below,nofun⟩

lemma Ready.roll : disk.Ready codec appended (segment+1) false :=
  ⟨ready.sound,fun index marked => (ready.below index marked).trans (Nat.lt_succ_self _),nofun⟩

lemma Ready.linked (there : (disk.find (.segment segment)).isSome) :
    (disk.syncDir .statements).Ready codec appended segment true where
  sound := (ready.syncDir _).sound
  below := (ready.syncDir _).below
  present := by
    intro _
    obtain ⟨log,found⟩ := Option.isSome_iff_exists.mp there
    refine ⟨log.link,?_,rfl⟩
    simp [find_syncDir,JournalFile.dir,found]

lemma Ready.openAppend :
    (disk.openAppend segment).1.isSome ∧ (disk.openAppend segment).2.Ready codec appended segment false ∧
    ((disk.openAppend segment).2.find (.segment segment)).isSome := by
  unfold JournalDisk.openAppend
  cases found : disk.find (.segment segment) with
  | some log => exact ⟨rfl,ready.shut,by simp [found]⟩
  | none =>
    have created := @Ready.put α codec appended disk segment false (.segment segment) ready.shut {} []
      found rfl (by simp)
    exact ⟨rfl,created,by simp [find_put]⟩

end

def Recorded (codec : Codec α) (disk : JournalDisk α) (segment : Nat) (rec : JournalRecord) : Prop :=
  ∃ log recs, disk.find (.segment segment) = some log ∧ log.linked = true ∧ log.content = codec.text recs ∧ rec ∈ recs

lemma Ready.extend (ready : disk.Ready codec appended segment opened) (recs : List JournalRecord)
    (known : ∀ rec ∈ recs, rec ∈ appended) :
    (disk.update (.segment segment) (LogFile.extend (codec.text recs))).Ready codec appended segment opened := by
  refine ready.mapWhere (· = .segment segment) _ (fun _ => id) (fun log rec holds => ?_) fun log before same lines => ?_
  · obtain ⟨before,inside,durable,newer⟩ := holds
    exact ⟨before,inside.trans (prefix_append _ _),durable,newer⟩
  · refine ⟨before ++ recs,?_,fun rec mem => ?_⟩
    · rw [codec.text_append,← same]
      rfl
    · rcases mem_append.mp mem with old | new
      · exact lines rec old
      · have mem := known rec new
        exact ⟨fun tomb untouched => untouched rec mem tomb rfl,
          fun kept => ⟨⟨rec,mem,kept,rfl,rfl⟩,rec,mem,kept,rfl,rfl,fun _ known => known⟩⟩

lemma Ready.recorded (ready : disk.Ready codec appended segment true) :
    (disk.update (.segment segment) (LogFile.extend (codec.line rec))).Recorded codec segment rec := by
  obtain ⟨log,found,linked⟩ := ready.present rfl
  obtain ⟨recs,same,_⟩ := ready.sound.whole_find found
  refine ⟨log.extend (codec.line rec),recs ++ [rec],?_,linked,?_,by simp⟩
  · rw [find_update,if_pos rfl,found]
    rfl
  · rw [codec.text_append,codec.text_singleton,← same]
    rfl

lemma Ready.persist (ready : disk.Ready codec appended segment opened) :
    (disk.update (.segment segment) LogFile.persist).Ready codec appended segment opened := by
  refine ready.mapWhere (· = .segment segment) _ (fun _ => id) (fun log rec holds => ?_) fun _ recs same lines =>
    ⟨recs,same,lines⟩
  obtain ⟨recs,inside,_,newer⟩ := holds
  exact ⟨recs,inside,inside.length_le,newer⟩

lemma Recorded.held (recorded : disk.Recorded codec segment rec)
    (below : ∀ index, disk.Marked (.segment index) → index < segment) :
    (disk.update (.segment segment) LogFile.persist).HeldIn codec rec (.segment segment) := by
  obtain ⟨log,recs,found,linked,same,mem⟩ := recorded
  refine ⟨fun marked => absurd (below segment marked) (lt_irrefl _),log.persist,?_,linked,?_⟩
  · rw [find_update,if_pos rfl,found]
    rfl
  · exact ⟨recs,same ▸ prefix_refl _,same ▸ le_rfl,rec,mem,rfl,le_rfl⟩

lemma cut_within (log : LogFile α) : (log.cut kept).content <+: log.content :=
  take_prefix _ _

lemma Sound.keeps_crash (sound : disk.Sound codec appended)
    (ends : ∀ entry ∈ disk.files, (entry.2.cut ((kept entry.1).getD 0)).content = [] ∨
      (entry.2.cut ((kept entry.1).getD 0)).content.getLast? = some codec.newline) :
    Keeps codec appended disk (disk.crash kept) where
  whole := by
    intro left mem
    obtain ⟨entry,there,stays⟩ := mem_filterMap.mp mem
    obtain rfl := survivor_eq stays
    obtain ⟨recs,same,lines⟩ := sound.whole entry there
    obtain ⟨count,whole⟩ := codec.text_of_ends (same ▸ cut_within _) (ends entry there)
    exact ⟨recs.take count,whole,fun rec inside => lines rec (mem_of_mem_take inside)⟩
  marks _ := id
  files file log found linked _ := by
    refine ⟨_,find_crash kept found linked,linked,fun rec holds => ?_⟩
    obtain ⟨recs,inside,durable,newer⟩ := holds
    refine ⟨recs,?_,durable,newer⟩
    rw [prefix_iff_eq_take.mp inside]
    exact take_prefix_take_left (durable.trans (le_max_left _ _))
  acked _ := id

end JournalDisk
end Oxidant.History
