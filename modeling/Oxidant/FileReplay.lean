import Oxidant.Semantics.Replay

/-! The file source is replayable: a range names paths no earlier batch consumed, and reading it
consumes exactly those. -/
namespace Oxidant.FileReplay
open Streaming Semantics List

lemma offsets_entry (state : FileSource) :
    state.offsets.entries[path]? = if path ∈ state.seen then some 1 else none := by
  change (state.seen.inner.map fun _ _ => (1 : Int))[path]? = _
  rw [Std.ExtTreeMap.getElem?_map]
  split
  · next mem =>
    obtain ⟨value,found⟩ := Option.isSome_iff_exists.mp (Std.ExtTreeMap.mem_iff_isSome_getElem?.mp mem)
    rw [found]
    rfl
  · next absent =>
    rw [Std.ExtTreeMap.getElem?_eq_none absent]
    rfl

def advance (position : SourceOffsets) (range : BatchRange) : SourceOffsets :=
  if range.source = "file" then
    ⟨position.source,range.items.foldl (fun entries path => entries.insert path 1) position.entries⟩
  else position

lemma foldl_insert_entry (items : List String) (entries : BTreeMap Int) :
    (items.foldl (fun entries item => entries.insert item 1) entries)[path]? =
      if path ∈ items then some 1 else entries[path]? := by
  induction items generalizing entries with
  | nil => simp
  | cons item items ih =>
    rw [foldl_cons,ih,Std.ExtTreeMap.getElem?_insert]
    by_cases later : path ∈ items
    · simp [later]
    · by_cases here : item = path
      · simp [here]
      · simp [later,here,Ne.symm here]

lemma advance_again (position : SourceOffsets) (range : BatchRange) :
    advance (advance position range) range = advance position range := by
  unfold advance
  split
  · refine congrArg (SourceOffsets.mk position.source) (Std.ExtTreeMap.ext_getElem? fun path => ?_)
    simp only [foldl_insert_entry]
    split <;> rfl
  · rfl

lemma offsets_insertMany (state : FileSource) (range : BatchRange) (file : range.source = "file") :
    FileSource.offsets ⟨state.seen.insertMany range.items⟩ = advance state.offsets range := by
  unfold advance
  rw [if_pos file]
  refine congrArg (SourceOffsets.mk "file") (Std.ExtTreeMap.ext_getElem? fun path => ?_)
  rw [foldl_insert_entry]
  apply (offsets_entry _).trans
  rw [offsets_entry]
  by_cases there : path ∈ range.items <;> simp [there]

lemma restored_offsets (reached : FileSource) :
    (FileSource.restoreOffsets reached.offsets {}).offsets = reached.offsets := by
  unfold FileSource.restoreOffsets
  rw [if_pos (show reached.offsets.source = "file" from rfl)]
  refine congrArg (SourceOffsets.mk "file") (Std.ExtTreeMap.ext_getElem? fun path => ?_)
  refine (offsets_entry _).trans (Eq.trans ?_ (offsets_entry reached).symm)
  have keys : path ∈ reached.offsets.entries.keys ↔ path ∈ reached.seen := by
    rw [Std.ExtTreeMap.mem_keys,Std.ExtTreeMap.mem_iff_isSome_getElem?,offsets_entry]
    split <;> simp_all
  simp only [Std.ExtTreeSet.mem_insertMany_list,contains_iff_mem,keys]
  simp

variable (config : FileConfig)

def records (range : BatchRange) : List RecordBatch :=
  if range.source ≠ "file" ∨ range.items = [] then []
  else (FileSource.readFiles config range.items).toOption.getD []

lemma pollRange_cases (range : BatchRange) :
    (∃ e, FileSource.pollRange config input range state = (.error e,state)) ∨
      ∃ next, FileSource.pollRange config input range state = (.ok (records config range),next) ∧
        next.offsets = advance state.offsets range := by
  unfold FileSource.pollRange records
  split
  · next idle =>
    refine .inr ⟨state,rfl,?_⟩
    unfold advance
    split
    · next file =>
      have none : range.items = [] := idle.resolve_left (fun other => other file)
      rw [none]
      rfl
    · rfl
  · next busy =>
    have file : range.source = "file" := Decidable.not_not.mp fun other => busy (.inl other)
    rcases input.failure with _ | e
    · cases FileSource.readFiles config range.items with
      | error e => exact .inl ⟨e,rfl⟩
      | ok batches => exact .inr ⟨_,rfl,offsets_insertMany state range file⟩
    · exact .inl ⟨e,rfl⟩

def startsAt (range : BatchRange) (position : SourceOffsets) : Prop :=
  ∀ path ∈ range.items, position.entries[path]? = none

lemma newFiles_unseen (mem : path ∈ FileSource.newFiles config listing state) : path ∉ state.seen := by
  unfold FileSource.newFiles at mem
  rw [mem_mergeSort,mem_filter] at mem
  intro seen
  rw [Std.ExtTreeSet.contains_iff_mem.mpr seen] at mem
  exact absurd mem.2 (by decide)

def replayable : Replayable (FileSource.source config) (fun _ => {}) where
  position := FileSource.offsets
  initial := FileSource.offsets {}
  records := records config
  startsAt := startsAt
  advance := advance
  committed := fun _ => rfl
  built := fun _ => rfl
  restored := fun reached _ => restored_offsets reached
  plan_position := fun _ _ => rfl
  plan_starts := by
    intro input state range planned _ path mem
    cases planned
    rw [offsets_entry,if_neg (newFiles_unseen config mem)]
  poll_records := by
    intro input range state batches answer
    change (FileSource.pollRange config input range state).1 = _ at answer
    rcases pollRange_cases config range with ⟨e,same⟩ | ⟨next,same,_⟩
    · rw [same] at answer
      cases answer
    · rw [same] at answer
      cases answer
      rfl
  poll_position := by
    intro input range state batches answer
    change (FileSource.pollRange config input range state).1 = _ at answer
    change (FileSource.pollRange config input range state).2.offsets = _
    rcases pollRange_cases config range with ⟨e,same⟩ | ⟨next,same,moved⟩
    · rw [same] at answer
      cases answer
    · rw [same]
      exact moved
  poll_failed := by
    intro input range state e answer
    change (FileSource.pollRange config input range state).1 = _ at answer
    change (FileSource.pollRange config input range state).2.offsets = _ ∨ _
    rcases pollRange_cases config range with ⟨e,same⟩ | ⟨next,same,_⟩
    · rw [same]
      exact .inl rfl
    · rw [same] at answer
      cases answer
  advance_again := advance_again
  durable_position := fun _ _ => rfl

end Oxidant.FileReplay
