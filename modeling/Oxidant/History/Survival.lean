import Mathlib.Data.List.Pairwise
import Oxidant.History.JournalInvariant

/-! Acknowledged records are folded at every later boot, over a disk that fails only as the writer
can see and crashes that leave whole lines. -/
namespace Oxidant.History
open List hiding after rec
open Lib Lib.Keyed Act

section Regular
def Regular (appended : List JournalRecord) : Prop := appended.Pairwise JournalRecord.Apart

instance : Std.Symm JournalRecord.Apart where
  symm _ _ apart here there := by
    obtain ⟨seqs,writes⟩ := apart there here
    exact ⟨fun differ => (seqs differ.symm).symm,
      fun same snapshot => (writes same.symm snapshot.symm).symm⟩

lemma Regular.id_eq (regular : Regular appended) {id id' : String}
    (one : Origin appended id seq) (other : Origin appended id' seq) : id = id' := by
  obtain ⟨rec,mem,kept,rfl,rfl⟩ := one
  obtain ⟨rec',mem',kept',rfl,same⟩ := other
  by_contra differ
  have apart := regular.forall mem mem' fun equal => differ (congrArg _ equal)
  exact (apart kept kept').1 differ same.symm

lemma Regular.eq_snapshot (regular : Regular appended) (mem : rec ∈ appended)
    (mem' : other ∈ appended) (snapshot : rec.kind = .snapshot) (kept : other.kind ≠ .tombstone)
    (same : other.id = rec.id) (at_ : other.writeSeq = rec.writeSeq) : other = rec := by
  by_contra differ
  have apart := regular.forall mem' mem differ
  exact (apart kept (by simp [snapshot])).2 same (.inr snapshot) at_

end Regular

namespace Journal

lemma insertBySeq_sub (mem : other ∈ insertBySeq st ordered) : other = st ∨ other ∈ ordered :=
    by
  induction ordered with
  | nil => exact .inl (mem_singleton.mp mem)
  | cons first rest ih =>
    unfold insertBySeq at mem
    split at mem
    · exact mem_cons.mp mem
    · split at mem
      · rcases mem_cons.mp mem with rfl | later
        · exact .inl rfl
        · exact .inr (mem_cons_of_mem _ later)
      · rcases mem_cons.mp mem with rfl | later
        · exact .inr mem_cons_self
        · exact (ih later).imp id (mem_cons_of_mem _)

lemma mem_insertBySeq : st ∈ insertBySeq st ordered := by
  induction ordered with
  | nil => exact mem_cons_self
  | cons first rest ih =>
    unfold insertBySeq
    split
    · exact mem_cons_self
    · split
      · exact mem_cons_self
      · exact mem_cons_of_mem _ ih

lemma mem_insertBySeq_of_ne (mem : other ∈ ordered) (apart : other.seq ≠ st.seq) :
    other ∈ insertBySeq st ordered := by
  induction ordered with
  | nil => cases mem
  | cons first rest ih =>
    unfold insertBySeq
    split
    · exact mem_cons_of_mem _ mem
    · split
      · next same =>
        rcases mem_cons.mp mem with rfl | later
        · exact absurd same.symm apart
        · exact mem_cons_of_mem _ later
      · rcases mem_cons.mp mem with rfl | later
        · exact mem_cons_self
        · exact mem_cons_of_mem _ (ih later)

lemma bySeq_snoc : bySeq (statements ++ [st]) = insertBySeq st (bySeq statements) := by
  simp [bySeq]

lemma bySeq_sub (mem : st ∈ bySeq statements) : st ∈ statements := by
  induction statements using List.reverseRecOn with
  | nil => cases mem
  | append_singleton statements last ih =>
    rw [bySeq_snoc] at mem
    rcases insertBySeq_sub mem with rfl | before
    · simp
    · exact mem_append_left _ (ih before)

lemma mem_bySeq (apart : Distinct FoldedStatement.seq statements) (mem : st ∈ statements) :
    st ∈ bySeq statements := by
  induction statements using List.reverseRecOn with
  | nil => cases mem
  | append_singleton statements last ih =>
    unfold Distinct at apart ih
    rw [map_append,nodup_append] at apart
    rw [bySeq_snoc]
    rcases mem_append.mp mem with before | here
    · apply mem_insertBySeq_of_ne (ih apart.1 before)
      exact apart.2.2 _ (mem_map_of_mem before) _ (by simp)
    · obtain rfl := mem_singleton.mp here
      exact mem_insertBySeq

lemma enforceRetention_sublist : (enforceRetention cfg time fold).statements.Sublist fold.statements := by
  apply filter_sublist.trans
  unfold withinAge
  split
  · exact filter_sublist
  · exact List.Sublist.refl _

lemma lt_nextIndex (sorted : indexes.Pairwise (· ≤ ·)) (mem : index ∈ indexes) : index < nextIndex indexes := by
  rcases eq_nil_or_concat indexes with rfl | ⟨front,last,rfl⟩
  · cases mem
  · simp only [nextIndex,concat_eq_append,getLast?_append,getLast?_singleton,
      Option.some_or,Option.map_some,Option.getD_some]
    rw [concat_eq_append] at mem sorted
    rcases mem_append.mp mem with before | here
    · exact Nat.lt_succ_of_le ((pairwise_append.mp sorted).2.2 _ before _ (by simp))
    · obtain rfl := mem_singleton.mp here
      exact Nat.lt_succ_self _

end Journal

namespace JournalDisk
variable {disk : JournalDisk α}

lemma find_isSome : (disk.find file).isSome ↔ ∃ log, (file,log) ∈ disk.files := by
  unfold find
  rw [Option.isSome_map,find?_isSome]
  constructor
  · rintro ⟨⟨name,log⟩,mem,same⟩
    exact ⟨log,by simpa using (by simpa using same : name = file) ▸ mem⟩
  · rintro ⟨log,mem⟩
    exact ⟨_,mem,by simp⟩

lemma mem_indexes {index? : JournalFile → Option Nat} {make : Nat → JournalFile}
    (names : ∀ file index, index? file = some index ↔ file = make index) :
    index ∈ disk.indexes index? ↔ (disk.find (make index)).isSome := by
  unfold indexes
  rw [mem_insertionSort,mem_filterMap,find_isSome]
  constructor
  · rintro ⟨⟨file,log⟩,mem,same⟩
    exact ⟨log,(names file index).mp same ▸ mem⟩
  · rintro ⟨log,mem⟩
    exact ⟨_,mem,(names _ index).mpr rfl⟩

lemma mem_segments : index ∈ disk.indexes JournalFile.segmentIndex? ↔ (disk.find (.segment index)).isSome :=
  mem_indexes fun file _ => by cases file <;> simp [JournalFile.segmentIndex?]

lemma mem_generations : index ∈ disk.indexes JournalFile.generationIndex? ↔ (disk.find (.generation index)).isSome :=
  mem_indexes fun file _ => by cases file <;> simp [JournalFile.generationIndex?]

lemma lt_nextGeneration (there : (disk.find (.generation index)).isSome) :
    index < Journal.nextIndex (disk.indexes JournalFile.generationIndex?) :=
  Journal.lt_nextIndex (pairwise_insertionSort _ _) (mem_generations.mpr there)

structure Staged (index : Nat) (log : LogFile α) (disk staged : JournalDisk α) : Prop where
  files : staged.files = disk.files
  markers : staged.markers = disk.markers
  acked : staged.acked = disk.acked
  temporary : staged.temporary index = some log

@[simp] lemma temporary_putTemporary : (disk.putTemporary index log).temporary index = some log := by
  unfold temporary putTemporary removeTemporary
  rw [find?_append]
  have gone : (disk.temporaries.filter fun entry => decide (entry.1 ≠ index)).find?
      (fun entry => decide (entry.1 = index)) = none := by
    simp
  rw [gone]
  simp

lemma Staged.create (index) : Staged index {} disk (disk.putTemporary index {}) :=
  ⟨rfl,rfl,rfl,temporary_putTemporary⟩

lemma Staged.update (before : Staged index log disk staged) (change) :
    Staged index (change log) disk (staged.updateTemporary index change) := by
  unfold updateTemporary
  rw [before.temporary]
  exact ⟨before.files,before.markers,before.acked,temporary_putTemporary⟩

lemma Staged.ready {segment} (staged_ : Staged index log disk staged)
    (ready : disk.Ready codec appended segment opened) : staged.Ready codec appended segment opened :=
  ready.congr staged_.files staged_.markers staged_.acked

structure Published (codec : Codec α) (index : Nat) (snapshots : List JournalRecord)
    (dropped : List String) (disk final : JournalDisk α) : Prop where
  held : ∀ rec file, disk.HeldIn codec rec file → final.HeldIn codec rec file
  generation : ∃ log, final.find (.generation index) = some log ∧ log.linked = true ∧
    log.content = codec.text snapshots ∧ (codec.text snapshots).length ≤ log.synced
  others : ∀ other, (final.find (.generation other)).isSome →
    other = index ∨ (disk.find (.generation other)).isSome
  acked : final.acked = disk.acked.filter fun rec => rec.id ∉ dropped
  markers : final.markers = disk.markers

def written (codec : Codec α) (snapshots : List JournalRecord) : LogFile α :=
  {content := codec.text snapshots,synced := (codec.text snapshots).length}

lemma find_rename (before : Staged index log disk staged) :
    ((staged.rename index dropped).2.syncDir .compacted).find file =
      if file = .generation index then some {log with linked := true}
      else if file.dir = .compacted then (disk.find file).map LogFile.link else disk.find file := by
  obtain ⟨files,temporaries,markers,acked⟩ := staged
  obtain ⟨rfl,rfl,rfl,there⟩ := before
  unfold rename
  rw [there,find_syncDir]
  have placed : ∀ acked : List JournalRecord,
      ({((JournalDisk.mk disk.files temporaries disk.markers disk.acked).removeTemporary index).put
        (.generation index) {log with linked := false} with acked} : JournalDisk α).find file =
      if file = .generation index then some {log with linked := false} else disk.find file :=
    fun _ => find_put _
  simp only [placed]
  split
  · next compacted =>
    split
    · rfl
    · rfl
  · next apart =>
    split
    · next same =>
      subst same
      exact absurd rfl apart
    · rfl

lemma markers_rename (before : Staged index log disk staged) :
    ((staged.rename index dropped).2.syncDir .compacted).markers = disk.markers := by
  unfold rename
  rw [before.temporary]
  exact before.markers

lemma Staged.published (before : Staged index (written codec snapshots) disk staged)
    (vacant : disk.find (.generation index) = none) :
    Published codec index snapshots dropped disk ((staged.rename index dropped).2.syncDir .compacted) where
  held := by
    intro rec file held
    obtain ⟨free,log,found,linked,holds⟩ := held
    refine ⟨?_,?_⟩
    · rintro ⟨entry,mem,inside⟩
      exact free ⟨entry,markers_rename before ▸ mem,inside⟩
    · have apart : file ≠ .generation index := by
        rintro rfl
        simp [vacant] at found
      rw [find_rename before,if_neg apart,found]
      split
      · exact ⟨_,rfl,rfl,holds⟩
      · exact ⟨_,rfl,linked,holds⟩
  generation := ⟨_,by rw [find_rename before,if_pos rfl],rfl,rfl,le_rfl⟩
  others := by
    intro other there
    rw [find_rename before] at there
    split at there
    · next same => exact .inl (JournalFile.generation.inj same)
    · right
      simpa [JournalFile.dir] using there
  acked := by
    unfold rename
    rw [before.temporary]
    simp only [syncDir]
    rw [before.acked]
  markers := markers_rename before

lemma Staged.renamed {segment} (before : Staged index (written codec snapshots) disk staged)
    (ready : disk.Ready codec appended segment opened) (vacant : disk.find (.generation index) = none)
    (lines : ∀ rec ∈ snapshots, rec.Descends appended) :
    (staged.rename index dropped).1 = true ∧
    (staged.rename index dropped).2.Ready codec appended segment opened := by
  have held : (staged.removeTemporary index).Ready codec appended segment opened :=
    ready.congr before.files before.markers before.acked
  have free : (staged.removeTemporary index).find (.generation index) = none := by
    rw [← vacant]
    unfold find removeTemporary
    rw [before.files]
  unfold rename
  rw [before.temporary]
  exact ⟨rfl,(held.put free rfl lines).filterAcked⟩

end JournalDisk

namespace Journal
open JournalDisk
variable {σ : Type} [DecidableEq α] {disk : JournalDisk α}

abbrev snapshots (kept : Fold) : List JournalRecord := (bySeq kept.statements).map FoldedStatement.toSnapshot

abbrev leftOut (fold kept : Fold) : List String :=
  (fold.statements.map FoldedStatement.id).filter fun id => id ∉ kept.statements.map FoldedStatement.id

lemma publish_ensures {segment} (ready : disk.Ready codec appended segment opened)
    (vacant : disk.find (.generation index) = none) (lines : ∀ st ∈ kept.statements, st.Descends appended)
    {post : Except JournalFault Unit → σ → JournalDisk α → Prop}
    (done : ∀ final, final.Ready codec appended segment opened →
        Published codec index (snapshots kept) (leftOut fold kept) disk final → post (.ok ()) state final)
    (failed : ∀ final, final.Ready codec appended segment opened → post (.error .refused) state final) :
    (publish codec index fold kept : JournalMethod α σ Unit).Ensures (steadily codec) (Sound codec appended) post
      state disk := by
  have known : ∀ rec ∈ snapshots kept, rec.Descends appended := by
    intro rec mem
    obtain ⟨st,there,rfl⟩ := mem_map.mp mem
    exact (lines st (bySeq_sub there)).toSnapshot
  refine ⟨ready.sound,fun choice => ?_⟩
  simp only [steadily,reply]
  refine ensures_demand_bind (fun yes => ?_) fun no => ?_
  swap
  · rw [no]
    exact failed disk ready
  rw [yes]
  have created := @Staged.create α disk index
  rw [if_neg Bool.false_ne_true,ensures_bind,ensures_ask]
  refine ⟨(created.ready ready).sound,fun choice => ?_⟩
  simp only [steadily_writeTemporary]
  refine ensures_demand_bind (fun yes => ?_) fun no => failed _ ((created.update _).ready ready)
  rw [yes]
  have filled := created.update (LogFile.extend (codec.text (snapshots kept)))
  rw [if_neg Bool.false_ne_true,ensures_bind,ensures_ask]
  refine ⟨(filled.ready ready).sound,fun choice => ?_⟩
  simp only [steadily,reply]
  refine ensures_demand_bind (fun yes => ?_) fun no => ?_
  swap
  · rw [no]
    exact failed _ (filled.ready ready)
  rw [yes]
  have synced := filled.update LogFile.persist
  rw [if_neg Bool.false_ne_true,ensures_bind,ensures_ask]
  refine ⟨(synced.ready ready).sound,fun choice => ?_⟩
  simp only [steadily,reply]
  cases choice.1.refused with
  | true => exact failed _ (synced.ready ready)
  | false =>
    have staged : Staged index
        (written codec (snapshots kept)) disk _ := synced
    obtain ⟨granted,renamed⟩ := staged.renamed ready vacant known
    rw [if_neg Bool.false_ne_true,granted]
    change (demand (!false) >>= _).Ensures ..
    apply ensures_demand_bind
    · intro _
      refine ⟨renamed.sound,fun _ => ?_⟩
      rw [steadily_syncDir]
      exact done _ (renamed.syncDir _) (staged.published vacant)
    · intro no
      cases no

lemma unlinkInputs_ensures {segment} (ready : disk.Ready codec appended segment opened)
    (marked : ∀ file ∈ inputs, disk.Marked file)
    (ended : ∀ final, final.Ready codec appended segment opened →
        final.markers = disk.markers.filter (fun entry => entry.1 ≠ index) → final.acked = disk.acked →
        post (.ok ()) state final) :
    (unlinkInputs index inputs : JournalMethod α σ Unit).Ensures (steadily codec) (Sound codec appended) post
      state disk := by
  unfold unlinkInputs
  rw [ensures_bind]
  refine ensures_each (fun rest after final => after = state ∧
    final.Ready codec appended segment opened ∧ final.markers = disk.markers ∧
    final.acked = disk.acked ∧ ∀ file ∈ rest, final.Marked file) ?_ ?_ ⟨rfl,ready,rfl,rfl,marked⟩
  · rintro file rest after final ⟨rfl,ready,same,acks,marks⟩
    refine ⟨ready.sound,fun choice => ?_⟩
    rw [steadily,reply]
    have marks_ : ∀ other ∈ rest, final.Marked other := fun other mem => marks other (mem_cons_of_mem _ mem)
    by_cases stuck : choice.1.stuck = true
    · rw [if_pos stuck]
      exact ⟨rfl,ready,same,acks,marks_⟩
    · rw [if_neg stuck]
      exact ⟨rfl,ready.remove (marks file mem_cons_self),same,acks,marks_⟩
  · rintro after final ⟨rfl,ready,same,acks,_⟩
    rw [ensures_bind,ensures_ask]
    refine ⟨ready.sound,fun _ => ?_⟩
    simp only [steadily_syncDir]
    rw [ensures_bind,ensures_ask]
    refine ⟨(ready.syncDir _).sound,fun _ => ?_⟩
    simp only [steadily_syncDir]
    refine ⟨((ready.syncDir _).syncDir _).sound,fun _ => ?_⟩
    simp only [steadily_removeMarker]
    refine ⟨(((ready.syncDir _).syncDir _).removeMarker _).sound,fun _ => ?_⟩
    simp only [steadily_syncDir]
    refine ended _ ((((ready.syncDir _).syncDir _).removeMarker _).syncDir _) ?_ acks
    rw [← same]
    rfl

lemma swap_ensures {segment} (ready : disk.Ready codec appended segment opened)
    (replaced : disk.Replaced codec appended segment index inputs)
    (ended : ∀ result final, final.Ready codec appended segment opened → post result state final) :
    (swap index inputs : JournalMethod α σ Unit).Ensures (steadily codec) (Sound codec appended) post
      state disk := by
  refine ⟨ready.sound,fun choice => ?_⟩
  simp only [steadily,reply]
  refine ensures_demand_bind (fun yes => ?_) fun no => ?_
  swap
  · rw [no]
    exact ended _ _ ready
  rw [yes,if_neg Bool.false_ne_true,ensures_bind,ensures_ask]
  refine ⟨(ready.createMarker index).sound,fun choice => ?_⟩
  simp only [steadily_writeMarker]
  refine ensures_demand_bind (fun yes => ?_) fun no => ?_
  swap
  · rw [no]
    exact ended _ _ ((ready.createMarker index).createMarker index)
  rw [yes,if_neg Bool.false_ne_true]
  have marked := (ready.createMarker index).writeMarker replaced.createMarker
  refine ⟨marked.sound,fun choice => ?_⟩
  refine ensures_demand_bind (fun _ => ?_) fun _ => ended _ _ marked
  refine ⟨marked.sound,fun choice => ?_⟩
  simp only [steadily_syncDir]
  exact unlinkInputs_ensures (marked.syncDir _)
    (fun file mem => ⟨(index,inputs),mem_append_right _ (mem_singleton_self _),mem⟩)
    fun final ready _ _ => ended _ _ ready

lemma mem_inputsOf_generation : .generation index ∈ inputsOf generations sealed ↔ index ∈ generations := by
  simp [inputsOf]

lemma mem_inputsOf_segment : .segment index ∈ inputsOf generations sealed ↔ index ∈ sealed := by simp [inputsOf]

lemma distinct_seq (regular : Regular appended) (lines : ∀ rec ∈ recs, rec.Descends appended) :
    Distinct FoldedStatement.seq (({} : Fold).all recs).statements := by
  have ids := (Fold.Valid.empty.all recs).distinct
  apply List.Nodup.map_on _ (List.Nodup.of_map _ ids)
  intro st mem other there same
  apply inj_on_of_nodup_map ids mem there
  exact regular.id_eq (Fold.descends lines mem).1 (same ▸ (Fold.descends lines there).1)

lemma mem_generation {files : List JournalFile} {rec : JournalRecord} {time : Int}
    (sound : disk.Sound codec appended) (regular : Regular appended)
    (read : fold = ({} : Fold).all (files.flatMap (disk.contents codec)))
    (retained : kept = enforceRetention cfg time fold) (mem : file ∈ files) (held : disk.HeldIn codec rec file)
    (untouched : Untouched appended rec.id) (stays : rec.id ∉ leftOut fold kept) :
    ∃ st ∈ bySeq kept.statements, st.id = rec.id ∧ rec.foldKey ≤ st.toSnapshot.foldKey := by
  obtain ⟨st,there,same,newer⟩ := sound.read_covers mem held untouched
  rw [← read] at there
  have sub : kept.statements.Sublist fold.statements := retained ▸ enforceRetention_sublist
  have kept_ : rec.id ∈ kept.statements.map FoldedStatement.id := by
    by_contra lost
    exact stays (mem_filter.mpr ⟨mem_map.mpr ⟨st,there,same⟩,by simpa using lost⟩)
  obtain ⟨other,inside,alike⟩ := mem_map.mp kept_
  have ids := read ▸ (Fold.Valid.empty.all _).distinct
  obtain rfl : other = st :=
    inj_on_of_nodup_map ids (sub.subset inside) there (alike.trans same.symm)
  have seqs := read ▸ distinct_seq regular (sound.lines_descend files)
  refine ⟨other,mem_bySeq (seqs.sublist (sub.map _)) inside,same,newer.trans ?_⟩
  exact Fold.foldKey_le_toSnapshot (read ▸ there)

lemma replaced_of_published {segment} (listed : generations = disk.indexes JournalFile.generationIndex?)
    (closed : sealed = (disk.indexes JournalFile.segmentIndex?).filter fun index => index < segment)
    (ready : disk.Ready codec appended segment opened) (regular : Regular appended)
    (read : fold = ({} : Fold).all ((inputsOf generations sealed).flatMap (disk.contents codec)))
    (retained : kept = enforceRetention cfg time fold)
    (published : Published codec (nextIndex generations) (snapshots kept) (leftOut fold kept) disk final) :
    final.Replaced codec appended segment (nextIndex generations) (inputsOf generations sealed) where
  held := by
    intro rec mem untouched
    rw [published.acked,mem_filter] at mem
    obtain ⟨acked,stays⟩ := mem
    obtain ⟨file,held⟩ := ready.sound.held rec acked untouched
    by_cases inside : file ∈ inputsOf generations sealed
    · obtain ⟨st,there,same,newer⟩ := mem_generation ready.sound regular read retained inside held
        untouched (by simpa using stays)
      obtain ⟨log,found,linked,content,durable⟩ := published.generation
      refine ⟨.generation (nextIndex generations),?_,?_,log,found,linked,?_⟩
      · rw [mem_inputsOf_generation,listed]
        intro again
        exact absurd (lt_nextGeneration (mem_generations.mp again)) (lt_irrefl _)
      · rintro ⟨entry,marked,named⟩
        rw [published.markers] at marked
        obtain ⟨later,log,above,found,_⟩ := ready.sound.newer _ ⟨entry,marked,named⟩
        rw [listed] at above
        exact absurd (lt_nextGeneration (by simp [found])) (not_lt.mpr above.le)
      · exact ⟨_,content ▸ prefix_refl _,durable,_,mem_map_of_mem there,same,newer⟩
    · exact ⟨file,inside,published.held rec file held⟩
  there := by
    obtain ⟨log,found,linked,_⟩ := published.generation
    exact ⟨log,found,linked⟩
  latest := by
    intro other there
    rcases published.others other there with rfl | before
    · exact le_rfl
    · rw [listed]
      exact (lt_nextGeneration before).le
  older := by
    intro other mem
    rw [mem_inputsOf_generation,listed] at mem
    rw [listed]
    exact lt_nextGeneration (mem_generations.mp mem)
  sealed := by
    intro other mem
    rw [mem_inputsOf_segment,closed] at mem
    simpa using (mem_filter.mp mem).2

lemma now_ensures (kept : safe disk) (told : ∀ time, post (.ok time) state disk) :
    (now cfg : JournalMethod α σ Int).Ensures (steadily codec) safe post state disk := by
  unfold now
  split
  · exact ⟨kept,fun choice => told _⟩
  · exact told 0

lemma compactSealed_ensures {segment} (ready : disk.Ready codec appended segment opened)
    (regular : Regular appended)
    (ended : ∀ result final, final.Ready codec appended segment opened → post result state final) :
    (compactSealed codec cfg segment force : JournalMethod α σ Bool).Ensures (steadily codec) (Sound codec appended)
      post state disk := by
  unfold compactSealed
  rw [ensures_bind,ensures_ask]
  refine ⟨ready.sound,fun _ => ?_⟩
  simp only [steadily_segments]
  rw [ensures_bind,ensures_ask]
  refine ⟨ready.sound,fun _ => ?_⟩
  simp only [steadily_generations]
  split
  · exact ended _ _ ready
  · unfold compactInputs
    rw [ensures_bind]
    apply readAll_ensures ready.sound.legible ready.sound
    simp only
    rw [ensures_bind]
    apply now_ensures ready.sound
    intro time
    simp only
    unfold rewriteInputs
    split
    · exact ended _ _ ready
    · rw [ensures_bind]
      refine publish_ensures ready ?_ ?_ ?_ fun final ready => ended _ _ ready
      · rw [← Option.not_isSome_iff_eq_none]
        intro there
        exact absurd (lt_nextGeneration there) (lt_irrefl _)
      · intro st mem
        exact Fold.descends (ready.sound.lines_descend _) (enforceRetention_sublist.subset mem)
      · intro final published_ published
        rw [ensures_bind]
        apply swap_ensures published_ (replaced_of_published rfl rfl ready regular rfl rfl published)
        intro result last ready
        cases result with
        | error fault => exact ended _ _ ready
        | ok done => exact ended _ _ ready

lemma redo_ensures {segment} (ready : disk.Ready codec appended segment opened) (ended : ∀ final,
    final.Ready codec appended segment opened → final.markers = disk.markers.filter (fun entry =>
    entry.1 ≠ index) → final.acked = disk.acked → post (.ok ()) state final) :
    (redo index : JournalMethod α σ Unit).Ensures (steadily codec) (Sound codec appended) post state disk := by
  refine ⟨ready.sound,fun _ => ?_⟩
  simp only [steadily_readMarker]
  exact unlinkInputs_ensures ready (fun file => marked_of_marker) ended

lemma recoverSwap_ensures {segment} (ready : disk.Ready codec appended segment opened)
    (ended : ∀ final, final.Ready codec appended segment opened → final.markers = [] → final.acked = disk.acked →
        post (.ok ()) state final) :
    (recoverSwap : JournalMethod α σ Unit).Ensures (steadily codec) (Sound codec appended) post state disk := by
  unfold recoverSwap
  rw [ensures_bind,ensures_ask]
  refine ⟨ready.sound,fun _ => ?_⟩
  simp only [steadily_leftovers]
  rw [ensures_bind]
  refine ensures_each (fun _ after final => after = state ∧
    final.Ready codec appended segment opened ∧ final.markers = disk.markers ∧
    final.acked = disk.acked) ?_ ?_ ⟨rfl,ready,rfl,rfl⟩
  · rintro index rest after final ⟨rfl,ready,same,acks⟩
    refine ⟨ready.sound,fun choice => ?_⟩
    rw [steadily,reply]
    by_cases stuck : choice.1.stuck = true
    · rw [if_pos stuck]
      exact ⟨rfl,ready,same,acks⟩
    · rw [if_neg stuck]
      exact ⟨rfl,ready.congr rfl rfl rfl,same,acks⟩
  · rintro after final ⟨rfl,ready,same,acks⟩
    refine ensures_each (fun rest after_ final => after_ = after ∧
      final.Ready codec appended segment opened ∧ (∀ entry ∈ final.markers, entry.1 ∈ rest) ∧
      final.acked = disk.acked) ?_ ?_ ⟨rfl,ready,?_,acks⟩
    · rintro index rest after_ final ⟨rfl,ready,left,acks⟩
      apply redo_ensures ready
      intro last ready markers acks_
      refine ⟨rfl,ready,?_,acks_.trans acks⟩
      intro entry mem
      rw [markers,mem_filter] at mem
      obtain ⟨there,apart⟩ := mem
      exact (mem_cons.mp (left entry there)).resolve_left (by simpa using apart)
    · rintro after_ final ⟨rfl,ready,left,acks⟩
      exact ended final ready (eq_nil_iff_forall_not_mem.mpr fun entry mem => not_mem_nil (left entry mem)) acks
    · intro entry mem
      rw [same] at mem
      exact mem_map_of_mem mem

lemma openJournal_ensures (sound : disk.Sound codec appended) (refused : post (.error .refused) () disk)
    (ended : ∀ writer fold final, final.Ready codec appended writer.segment writer.file → writer.dirty = false →
        final.acked = disk.acked →
        (fold.statements.length < cfg.maxRecords →
          ∃ files : List JournalFile, (∀ file, (final.find file).isSome → file ∈ files) ∧
            fold = ({} : Fold).all (files.flatMap (final.contents codec))) → post (.ok (writer,fold)) () final) :
    (openJournal codec cfg).Ensures (steadily codec) (Sound codec appended) post () disk := by
  refine ⟨sound,fun _ => ?_⟩
  refine ensures_demand_bind (fun _ => ?_) fun _ => refused
  obtain ⟨bound,ready⟩ := sound.ready
  rw [ensures_bind]
  apply recoverSwap_ensures ready
  intro final ready unmarked acks
  rw [ensures_bind]
  apply replay_ensures ready.sound.legible ready.sound
  intro fold whole
  refine ⟨ready.sound,fun _ => ?_⟩
  refine ended _ fold final ⟨ready.sound,?_,?_⟩ rfl acks ?_
  · rintro index ⟨entry,mem,_⟩
    rw [unmarked] at mem
    cases mem
  · intro never
    cases never
  · intro short
    refine ⟨_,?_,whole short⟩
    intro file there
    unfold newestFirst
    cases file with
    | segment index => simpa using mem_segments.mpr there
    | generation index => simpa using mem_generations.mpr there

end Journal

namespace Writer
open Journal JournalDisk
variable {codec : Codec α} {disk : JournalDisk α} {writer : Writer}

structure Fits (codec : Codec α) (appended : List JournalRecord) (writer : Writer)
    (disk : JournalDisk α) : Prop where
  ready : disk.Ready codec appended writer.segment writer.file
  handle : writer.dirty = true → writer.file = true

lemma Fits.fail (fits : writer.Fits codec appended disk) : writer.fail.Fits codec appended disk :=
  ⟨fits.ready.shut,nofun⟩

variable [DecidableEq α]

section
variable (fits : writer.Fits codec appended disk)
include fits

section
lemma openSegment_ensures
    (done : ∀ after final, after.Fits codec appended final → after.file = true → post (.ok true) after final)
    (failed : ∀ after final, after.Fits codec appended final → post (.ok false) after final) :
    (openSegment : JournalMethod α Writer Bool).Ensures (steadily codec) (Sound codec appended) post
      writer disk := by
  unfold openSegment
  rw [ensures_get_bind]
  split
  · next file => exact done writer disk fits file
  · refine ⟨fits.ready.sound,fun choice => ?_⟩
    simp only [steadily,reply]
    cases choice.1.refused with
    | true => exact failed _ _ fits.fail
    | false =>
      obtain ⟨some_,ready,there⟩ := fits.ready.openAppend
      obtain ⟨len,answer⟩ := Option.isSome_iff_exists.mp some_
      rw [if_neg Bool.false_ne_true]
      simp only [answer]
      refine ⟨ready.sound,fun _ => ?_⟩
      rw [steadily_syncDir]
      exact done _ _ ⟨ready.linked there,fun _ => rfl⟩ rfl

lemma writeLine_ensures {rec : JournalRecord} (file : writer.file = true) (known : rec ∈ appended)
    (done : ∀ after final, after.Fits codec appended final → after.dirty = true →
      final.Recorded codec after.segment rec → post (.ok true) after final)
    (failed : ∀ after final, after.Fits codec appended final → post (.ok false) after final) :
    (writeLine (codec.line rec)).Ensures (steadily codec) (Sound codec appended) post writer disk := by
  refine ⟨fits.ready.sound,fun choice => ?_⟩
  simp only [steadily_write]
  cases choice.1.refused with
  | true =>
    have kept := fits.ready.extend [] (by simp)
    exact failed _ _ ⟨kept.shut,nofun⟩
  | false =>
    have kept := fits.ready.extend [rec] (by simpa using known)
    rw [codec.text_singleton] at kept
    have opened : disk.Ready codec appended writer.segment true := file ▸ fits.ready
    exact done _ _ ⟨kept,fun _ => file⟩ rfl opened.recorded

lemma append_ensures {rec : JournalRecord} (known : rec ∈ appended)
    (done : ∀ after final, after.Fits codec appended final → after.dirty = true →
      final.Recorded codec after.segment rec → post (.ok true) after final)
    (failed : ∀ after final, after.Fits codec appended final → post (.ok false) after final) :
    (append codec rec).Ensures (steadily codec) (Sound codec appended) post writer disk := by
  unfold append
  rw [ensures_bind]
  apply openSegment_ensures fits
  · intro after final fits file
    exact writeLine_ensures fits file known done failed
  · exact failed

lemma flush_ensures
    (done : (writer.settled).Fits codec appended (disk.update (.segment writer.segment) LogFile.persist) →
      post (.ok true) writer.settled (disk.update (.segment writer.segment) LogFile.persist))
    (failed : writer.fail.Fits codec appended disk → post (.ok false) writer.fail disk) :
    (flush writer.segment).Ensures (steadily codec) (Sound codec appended) post writer disk := by
  refine ⟨fits.ready.sound,fun choice => ?_⟩
  simp only [steadily,reply]
  by_cases refused : choice.1.refused = true
  · simp only [refused]
    exact failed fits.fail
  · simp only [refused]
    exact done ⟨fits.ready.persist,by simp [settled]⟩

lemma sync_ensures
    (done : ∀ after final, after.Fits codec appended final → after.dirty = false →
        (∀ rec, writer.dirty = true → disk.Recorded codec writer.segment rec →
            ∃ file, final.HeldIn codec rec file) → post (.ok true) after final)
    (failed : ∀ after final, after.Fits codec appended final → after.file = false → post (.ok false) after final) :
    (sync : JournalMethod α Writer Bool).Ensures (steadily codec) (Sound codec appended) post writer disk := by
  unfold sync
  rw [ensures_get_bind]
  split
  · next clean =>
    have clean : writer.dirty = false := by simpa using clean
    apply done writer disk fits clean
    intro rec dirty
    rw [clean] at dirty
    cases dirty
  · split
    · next shut => exact failed writer disk fits (by simpa using shut)
    · apply flush_ensures fits
      · intro fits_
        exact done _ _ fits_ rfl fun rec _ recorded => ⟨_,recorded.held fits.ready.below⟩
      · intro fits_
        exact failed _ _ fits_ rfl

end

section
variable {post : Except JournalFault Unit → Writer → JournalDisk α → Prop}
  (done : ∀ after final, after.Fits codec appended final → post (.ok ()) after final)
include done

lemma sealSegment_ensures :
    (sealSegment : JournalMethod α Writer Unit).Ensures (steadily codec) (Sound codec appended) post
      writer disk := by
  unfold sealSegment
  rw [ensures_bind]
  apply sync_ensures fits
  · intro after final fits clean _
    simp only
    rw [ensures_get_bind]
    split
    · refine ⟨fits.ready.sound,fun _ => ?_⟩
      rw [steadily_syncDir]
      refine done _ _ ⟨(fits.ready.syncDir _).roll,fun dirty => ?_⟩
      rw [show after.closed.rolled.dirty = after.dirty from rfl,clean] at dirty
      cases dirty
    · exact done after final fits
  · intro after final fits shut
    rw [ensures_get_bind,if_neg (by simp [shut])]
    exact done after final fits

lemma compact_ensures (regular : Regular appended) :
    (compact codec cfg force).Ensures (steadily codec) (Sound codec appended) post writer disk := by
  unfold compact
  rw [ensures_get_bind,ensures_bind,ensures_attempt]
  apply compactSealed_ensures fits.ready regular
  intro result final ready
  exact done _ _ ⟨ready,fits.handle⟩

lemma rollIfFull_ensures (regular : Regular appended) :
    (rollIfFull codec cfg).Ensures (steadily codec) (Sound codec appended) post writer disk := by
  unfold rollIfFull
  rw [ensures_get_bind]
  split
  · rw [ensures_bind]
    apply sealSegment_ensures fits
    intro after final fits
    exact compact_ensures fits done regular
  · exact done writer disk fits

lemma acknowledge_ensures {rec : JournalRecord} (known : rec ∈ appended)
    (dirty : writer.dirty = true) (recorded : disk.Recorded codec writer.segment rec) :
    (acknowledge rec).Ensures (steadily codec) (Sound codec appended) post writer disk := by
  unfold acknowledge
  rw [ensures_bind]
  apply sync_ensures fits
  · intro after final fits _ held
    refine ⟨fits.ready.sound,fun _ => ?_⟩
    exact done _ _ ⟨fits.ready.ack known fun _ => held rec dirty recorded,fits.handle⟩
  · intro after final fits _
    exact done _ _ fits

lemma handleAppend_ensures {rec : JournalRecord} (regular : Regular appended) (known : rec ∈ appended) :
    (handleAppend codec cfg rec wanted).Ensures (steadily codec) (Sound codec appended) post writer disk := by
  unfold handleAppend
  rw [ensures_bind]
  apply append_ensures fits known
  · intro after final fits dirty recorded
    cases wanted with
    | true =>
      simp only [Bool.and_self,if_true]
      rw [ensures_bind]
      refine acknowledge_ensures fits (fun after final fits => ?_) known dirty recorded
      exact rollIfFull_ensures fits done regular
    | false => exact rollIfFull_ensures fits done regular
  · intro after final fits
    simp only [Bool.and_false]
    exact rollIfFull_ensures fits done regular

lemma forceCompaction_ensures (regular : Regular appended) :
    (forceCompaction codec cfg).Ensures (steadily codec) (Sound codec appended) post writer disk := by
  unfold forceCompaction
  rw [ensures_bind]
  apply sealSegment_ensures fits
  intro after final fits
  exact compact_ensures fits done regular

end

end

end Writer

namespace JournalSystem
open JournalDisk
/-- Every terminal record acknowledged before the last boot was folded by it, unless tombstoned,
dropped by retention or past the cap. -/
def Survives (cfg : JournalConfig) (system : JournalSystem α) : Prop :=
  ∀ fold acked, system.booted = some (fold,acked) → fold.statements.length < cfg.maxRecords →
    ∀ rec ∈ acked, rec.Terminal → Untouched system.appended rec.id → fold.Includes rec

/-- No file operation fails unseen or leaves part of a line, a crash leaves whole lines, and
sequences are kept apart. -/
def Orderly (codec : Codec α) (system : JournalSystem α) : JournalEvent → Prop
  | .boot choices | .start choices | .sync choices | .compact choices => ∀ choice ∈ choices, choice.Steady
  | .append rec _ choices => (∀ choice ∈ choices, choice.Steady) ∧ ∀ other ∈ system.appended, rec.Apart other
  | .crash kept => ∀ entry ∈ system.disk.files,
    (entry.2.cut ((kept entry.1).getD 0)).content = [] ∨
      (entry.2.cut ((kept entry.1).getD 0)).content.getLast? = some codec.newline

instance (codec : Codec α) [DecidableEq α] (system : JournalSystem α) (event : JournalEvent) :
    Decidable (system.Orderly codec event) := by
  cases event <;> unfold Orderly <;> infer_instance

def Consistent (codec : Codec α) (appended : List JournalRecord) (disk : JournalDisk α) : JournalProcess → Prop
  | .down => disk.Sound codec appended
  | .starting writer | .running writer => writer.Fits codec appended disk

structure Kept (codec : Codec α) (cfg : JournalConfig) (system : JournalSystem α) : Prop where
  regular : Regular system.appended
  consistent : Consistent codec system.appended system.disk system.process
  survives : system.Survives cfg

variable {codec : Codec α} {cfg : JournalConfig} {system : JournalSystem α}

lemma Consistent.sound {appended : List JournalRecord} {disk : JournalDisk α}
    {process : JournalProcess} (consistent : Consistent codec appended disk process) :
    disk.Sound codec appended := by
  cases process with
  | down => exact consistent
  | starting writer => exact consistent.ready.sound
  | running writer => exact consistent.ready.sound

lemma Consistent.cons {appended : List JournalRecord} {disk : JournalDisk α}
    {process : JournalProcess} (consistent : Consistent codec appended disk process)
    (rec) : Consistent codec (rec::appended) disk process := by
  cases process with
  | down => exact Sound.cons consistent rec
  | starting writer => exact ⟨consistent.ready.cons rec,consistent.handle⟩
  | running writer => exact ⟨consistent.ready.cons rec,consistent.handle⟩

lemma Kept.hand (kept : system.Kept codec cfg) {rec : JournalRecord}
    (apart : ∀ other ∈ system.appended, rec.Apart other) :
    ({system with appended := rec::system.appended} : JournalSystem α).Kept codec cfg where
  regular := .cons apart kept.regular
  consistent := kept.consistent.cons rec
  survives fold acked same short other mem terminal untouched :=
    kept.survives fold acked same short other mem terminal untouched.of_cons

variable [DecidableEq α]

lemma Kept.perform (kept : system.Kept codec cfg) (steady : ∀ choice ∈ choices, choice.Steady)
    (ensures : method.Ensures (steadily codec) (Sound codec system.appended)
        (fun _ after final => after.Fits codec system.appended final) writer system.disk) :
    (system.perform codec writer method choices).Kept codec cfg where
  regular := kept.regular
  consistent := by
    have ran := Prog.run_ensures_within (method writer) ensures steady
    unfold JournalSystem.perform
    revert ran
    rcases (method writer).run (reply codec) choices system.disk with ⟨_ | ⟨result,after⟩,final⟩
    · exact id
    · exact id
  survives := kept.survives

lemma includes_of_held {appended : List JournalRecord} {disk : JournalDisk α}
    {files : List JournalFile} {rec : JournalRecord} (sound : disk.Sound codec appended)
    (regular : Regular appended) (listed : ∀ file, (disk.find file).isSome → file ∈ files)
    (acked : rec ∈ disk.acked) (terminal : rec.Terminal) (untouched : Untouched appended rec.id) :
    (({} : Fold).all (files.flatMap (disk.contents codec))).Includes rec := by
  obtain ⟨file,held⟩ := sound.held rec acked untouched
  have there : (disk.find file).isSome := by
    obtain ⟨_,log,found,_⟩ := held
    simp [found]
  obtain ⟨st,mem,same,newer⟩ := sound.read_covers (listed file there) held untouched
  refine ⟨st,mem,same,newer.lt_or_eq.imp id fun equal => ⟨equal,?_⟩⟩
  obtain ⟨_,last,known,kept,at_,seq,status⟩ := Fold.descends (sound.lines_descend files) mem
  have seqs : st.lastSeq = rec.writeSeq := congrArg (fun key => (ofLex key).1) equal.symm
  obtain rfl := regular.eq_snapshot (sound.known rec acked) known terminal.1 kept (at_.trans same) (seq.trans seqs)
  obtain ⟨_,known,_⟩ := terminal.2
  rw [known]
  exact status _ known

lemma Kept.boot (kept : system.Kept codec cfg) (steady : ∀ choice ∈ choices, choice.Steady)
    (down : system.process = .down) : (system.boot codec cfg choices).Kept codec cfg := by
  have sound := kept.consistent.sound
  have ensures : (Journal.openJournal codec cfg).Ensures (steadily codec) (Sound codec system.appended)
      (fun result _ final => match result with
        | .error _ => final.Sound codec system.appended
        | .ok (writer,fold) => writer.Fits codec system.appended final ∧
          (fold.statements.length < cfg.maxRecords → ∀ rec ∈ system.disk.acked, rec.Terminal →
            Untouched system.appended rec.id → fold.Includes rec)) () system.disk := by
    apply Journal.openJournal_ensures sound sound
    intro writer fold final ready clean acks whole
    refine ⟨⟨ready,fun dirty => by simp [clean] at dirty⟩,?_⟩
    intro short rec acked terminal untouched
    obtain ⟨files,listed,rfl⟩ := whole short
    exact includes_of_held ready.sound kept.regular listed (acks ▸ acked) terminal untouched
  have ran := Prog.run_ensures_within _ ensures steady
  unfold JournalSystem.boot
  revert ran
  rcases (Journal.openJournal codec cfg ()).run (reply codec) choices system.disk with
    ⟨_ | ⟨_ | ⟨writer,fold⟩,_⟩,final⟩
  · intro sound
    exact ⟨kept.regular,by simpa [down,Consistent] using sound,kept.survives⟩
  · intro sound
    exact ⟨kept.regular,by simpa [down,Consistent] using sound,kept.survives⟩
  · rintro ⟨fits,includes⟩
    refine ⟨kept.regular,fits,?_⟩
    rintro fold_ acked same
    obtain ⟨rfl,rfl⟩ := Prod.mk.inj (Option.some.inj same)
    exact includes

lemma Kept.step (kept : system.Kept codec cfg) (orderly : system.Orderly codec event) :
    (system.step codec cfg event).Kept codec cfg := by
  unfold JournalSystem.step
  cases event with
  | boot choices =>
    simp only
    split
    · next down => exact kept.boot orderly down
    · exact kept
  | start choices =>
    simp only
    split
    · next writer starting =>
      have fits := kept.consistent
      rw [starting] at fits
      exact kept.perform orderly (Writer.compact_ensures fits (fun _ _ fits => fits) kept.regular)
    · exact kept
  | append rec wanted choices =>
    simp only
    split
    · next writer running =>
      have handed := kept.hand orderly.2
      have fits := handed.consistent
      rw [show ({system with appended := rec::system.appended} : JournalSystem α).process =
        .running writer from running] at fits
      exact handed.perform orderly.1 (Writer.handleAppend_ensures fits (fun _ _ fits => fits)
        handed.regular mem_cons_self)
    · exact kept
  | sync choices =>
    simp only
    split
    · next writer running =>
      have fits := kept.consistent
      rw [running] at fits
      apply kept.perform orderly
      rw [ensures_bind]
      exact Writer.sync_ensures fits (fun _ _ fits _ _ => fits) fun _ _ fits _ => fits
    · exact kept
  | compact choices =>
    simp only
    split
    · next writer running =>
      have fits := kept.consistent
      rw [running] at fits
      exact kept.perform orderly (Writer.forceCompaction_ensures fits (fun _ _ fits => fits) kept.regular)
    · exact kept
  | crash left =>
    exact ⟨kept.regular,(kept.consistent.sound.keeps_crash orderly).sound kept.consistent.sound,kept.survives⟩

/-- In a journal whose disk fails only visibly, every boot folds the terminal records acknowledged
before it. -/
theorem acked_survives (events : List JournalEvent) (met : Steps.Meets (step codec cfg) (Orderly codec) {} events) :
    (Steps.run (step codec cfg) ({} : JournalSystem α) events).Survives cfg := by
  refine (Steps.run_invariant _ _ (Kept codec cfg) (fun _ _ kept allowed => kept.step allowed) _ _ met ?_).survives
  refine ⟨.nil,⟨?_,?_,?_,?_⟩,?_⟩
  · rintro _ ⟨⟩
  · rintro _ ⟨⟩
  · rintro _ ⟨⟩
  · rintro _ ⟨_,⟨⟩,_⟩
  · rintro _ _ ⟨⟩

namespace Sample

inductive Symbol where
  | newline
  | opening (rec : JournalRecord)
  | closing
  deriving DecidableEq, Repr

def parse : List Symbol → Option JournalRecord
  | [.opening rec,.closing] => some rec
  | _ => none

def symbols : Codec Symbol where
  newline := .newline
  render rec := [.opening rec,.closing]
  parse := parse
  blank line := line.isEmpty
  parse_render _ := rfl
  newline_not_mem _ := by simp
  render_not_blank _ := rfl

def limits : JournalConfig := {maxRecords := 10,retentionDays := 0,segmentMaxBytes := 100}

def finished (id : String) (seq : Nat) : JournalRecord where
  kind := .snapshot
  seq := seq
  lastSeq := some (seq+1)
  id := id
  status := some .succeeded
  submittedAtMs := 0

def fine : List DiskChoice := List.replicate 20 {}

def tears (torn : Nat) : List DiskChoice := [{},{},{refused := true,torn}]

def history (torn : Nat) : List JournalEvent :=
  [.boot fine,.start fine,.append (finished "a" 1) true (tears torn),
    .append (finished "b" 3) true fine,.crash fun _ => some 100,.boot fine]

theorem clean_failure_survives :
    (Steps.run (step symbols limits) {} (history 0)).booted.map Prod.snd = some [finished "b" 3] ∧
      (Steps.run (step symbols limits) {} (history 0)).Survives limits :=
  ⟨by decide,acked_survives _ (by decide)⟩

/-- What the failed write left swallows the line that follows it. -/
theorem torn_failure_loses : ¬(Steps.run (step symbols limits) {} (history 1)).Survives limits := by
  intro survives
  obtain ⟨st,mem,_⟩ := survives {} [finished "b" 3] (by decide) (by decide)
    (finished "b" 3) (by decide) ⟨rfl,_,rfl,rfl⟩
    (by unfold Untouched; decide)
  cases mem

end Sample
end JournalSystem
end Oxidant.History
