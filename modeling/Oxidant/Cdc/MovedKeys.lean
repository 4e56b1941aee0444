import Mathlib.Tactic.ByContra
import Oxidant.Cdc.Changes

/-! Updates that move a row's identity: what the publisher said of the identity's columns, and the
delete of the old row that precedes the new one. -/
namespace Oxidant.Cdc.PostgresCdcSource
open Streaming List
variable (setup : Setup) (source : PostgresCdcSource)

def carried (projection : List (Option Nat)) (tuple : List TupleData) (target : Nat) : TupleData :=
  tuple.zipIdx.foldl (fun found (value,index) =>
    if projection[index]? = some (some target) then value else found) .null

def said (relationOid : Nat) : List TupleData → Nat → TupleData :=
  carried ((source.projections[relationOid]?).getD [])

def Differs (was now : TupleData) : Prop := now ≠ .unchangedToast ∧ was ≠ now

def Moved (relationOid : Nat) (image : Option (List TupleData)) (new : List TupleData) : Prop :=
  ∃ was, image = some was ∧ ∃ target ∈ source.keyPositions setup relationOid,
    Differs (source.said relationOid was target) (source.said relationOid new target)

/-- The events of an update: a delete of the old row exactly if the identity changed, then the new
row. -/
structure Recognised (walStart relationOid : Nat) (key old : Option (List TupleData))
    (new : List TupleData) (events : List ChangeEvent) : Prop where
  first : events = events.filter (·.op = .delete) ++
    source.pushChange setup relationOid .update walStart new
  exact : events.filter (·.op = .delete) ≠ [] ↔ source.Moved setup relationOid (key <|> old) new
  values : ∀ event ∈ events.filter (·.op = .delete), ∃ was ∈ (key <|> old),
    ∀ target ∈ source.keyPositions setup relationOid,
      event.values[target]? = some (datum setup (source.said relationOid was target))

def Replicated (relationOid : Nat) : Prop := source.project setup relationOid [] ≠ none

/-- A key section comes with a change; beside a whole old row a change is seen if there is one, and
else no value of the identity is left out. -/
def Told (relationOid : Nat) (new : List TupleData) : Option (List TupleData) → Option (List TupleData) → Prop
  | some key,_ => source.Replicated setup relationOid → source.Moved setup relationOid (some key) new
  | none,none => True
  | none,some old =>
    let was := source.said relationOid old
    let now := source.said relationOid new
    (source.Moved setup relationOid (some old) new ∧ ∃ target ∈ source.keyPositions setup relationOid,
      datum setup (was target) ≠ datum setup (now target)) ∨
    ∀ target ∈ source.keyPositions setup relationOid, ¬ Differs (was target) (now target) ∧
      (now target = .unchangedToast → datum setup (was target) = none)

variable {setup source} {relationOid : Nat}

/-- Both folds read the columns from the left, and the last one that is mapped there counts. -/
lemma project_fold (columns : List (TupleData × Nat)) (values : List (Option String)) (found : TupleData)
    (agree : values[target]? = some (datum setup found)) :
    (columns.foldl (fun values (value,index) =>
      match ((source.projections[relationOid]?).getD [])[index]? with
      | some (some target) => values.set target (datum setup value)
      | _ => values) values)[target]? =
    some (datum setup (columns.foldl (fun found (value,index) =>
      if ((source.projections[relationOid]?).getD [])[index]? = some (some target) then value
      else found) found)) := by
  induction columns generalizing values found with
  | nil => exact agree
  | cons column columns ih =>
    apply ih
    dsimp only
    have inside := (List.getElem?_eq_some_iff.mp agree).1
    split
    · next other mapped =>
      rw [mapped,getElem?_set]
      by_cases same : other = target
      · simp [same,inside]
      · simp [same,agree]
    · next unmapped => rw [if_neg (unmapped target),agree]

lemma project_some (replicated : source.Replicated setup relationOid) (tuple) :
    ∃ values, source.project setup relationOid tuple = some values ∧ ∀ target < setup.emittedColumns,
        values[target]? = some (datum setup (source.said relationOid tuple target)) := by
  unfold Replicated project at replicated
  unfold project said carried
  cases there : source.relations[relationOid]? with
  | none => simp [there] at replicated
  | some relation =>
    rw [there] at replicated
    dsimp only at replicated ⊢
    split at replicated
    · exact absurd rfl replicated
    · next known =>
      rw [if_neg known]
      refine ⟨_,rfl,fun target inside => ?_⟩
      apply project_fold
      rw [getElem?_replicate,if_pos inside]
      rfl

lemma keyPositions_lt (mem : target ∈ source.keyPositions setup relationOid) : target < setup.emittedColumns := by
  unfold keyPositions at mem
  split at mem
  · cases mem
  · split at mem
    · cases mem
    · obtain ⟨key,_,found⟩ := mem_filterMap.mp mem
      have inside := (findIdx?_eq_some_iff_getElem.mp found).1
      rw [length_map,length_take] at inside
      omega

lemma replicated_of_key (mem : target ∈ source.keyPositions setup relationOid) :
    source.Replicated setup relationOid := by
  unfold keyPositions at mem
  unfold Replicated project
  split at mem
  · cases mem
  · split at mem
    · cases mem
    · next table known => simp [known]

lemma pushRow_ne_nil :
    source.pushRow setup relationOid op walStart tuple ≠ [] ↔ source.Replicated setup relationOid := by
  constructor
  · intro emitted none
    apply emitted
    unfold project at none
    unfold pushRow project
    split at none
    · simp
    · split at none
      · next foreign => simp [foreign]
      · cases none
  · intro replicated
    obtain ⟨values,same,_⟩ := project_some replicated tuple
    simp [pushRow,same]

section Update
def leaving (setup : Setup) (source : PostgresCdcSource) (walStart relationOid : Nat)
    (key old : Option (List TupleData)) (new : List TupleData) : List ChangeEvent :=
  match source.movedKey setup relationOid key old new with
  | some was => source.pushRow setup relationOid .delete walStart was
  | none => []

lemma deletes_changes :
    (source.changes setup walStart (.update relationOid key old new)).filter (·.op = .delete) =
      source.leaving setup walStart relationOid key old new := by
  change ((source.leaving setup walStart relationOid key old new) ++
    source.pushChange setup relationOid .update walStart new).filter _ = _
  have deletes : (source.leaving setup walStart relationOid key old new).filter (·.op = .delete) =
      source.leaving setup walStart relationOid key old new := by
    rw [filter_eq_self]
    intro event mem
    unfold leaving at mem
    split at mem
    · simp [pushRow_op mem]
    · cases mem
  have updates : (source.pushChange setup relationOid .update walStart new).filter (·.op = .delete) = [] := by
    rw [filter_eq_nil_iff]
    intro event mem
    simp [pushChange_op mem]
  rw [filter_append,deletes,updates,append_nil]

lemma movedKey_image (moved : source.movedKey setup relationOid key old new = some was) : was ∈ (key <|> old) := by
  cases key with
  | some key => exact moved
  | none =>
    cases old with
    | none => cases moved
    | some old =>
      simp only [movedKey] at moved
      split at moved
      · cases moved
      · split at moved
        · split at moved
          · exact moved
          · cases moved
        · cases moved

lemma leaving_values (mem : event ∈ source.leaving setup walStart relationOid key old new) :
    ∃ was ∈ (key <|> old), ∀ target ∈ source.keyPositions setup relationOid,
      event.values[target]? = some (datum setup (source.said relationOid was target)) := by
  unfold leaving at mem
  split at mem
  · next was moved =>
    refine ⟨was,movedKey_image moved,fun target key => ?_⟩
    obtain ⟨values,same,each⟩ := project_some (replicated_of_key key) was
    simp only [pushRow,same,mem_singleton] at mem
    rw [mem]
    exact each target (keyPositions_lt key)
  · cases mem

lemma leaving_old :
    source.leaving setup walStart relationOid none (some old) new ≠ [] ↔
    ∃ target ∈ source.keyPositions setup relationOid,
      datum setup (source.said relationOid old target) ≠ datum setup (source.said relationOid new target) := by
  unfold leaving movedKey
  dsimp only
  by_cases empty : (source.keyPositions setup relationOid).isEmpty = true
  · rw [if_pos empty,isEmpty_iff.mp empty]
    simp
  · rw [if_neg empty]
    obtain ⟨first,mem⟩ := exists_mem_of_ne_nil _ (fun none => empty (isEmpty_iff.mpr none))
    have replicated := replicated_of_key mem
    obtain ⟨was,same,values⟩ := project_some replicated old
    obtain ⟨now,same',values'⟩ := project_some replicated new
    rw [same,same']
    have compared : ((source.keyPositions setup relationOid).any fun index =>
        was[index]? != now[index]?) = true ↔ ∃ target ∈ source.keyPositions setup relationOid,
          datum setup (source.said relationOid old target) ≠ datum setup (source.said relationOid new target) := by
      rw [any_eq_true]
      refine exists_congr fun target => and_congr_right fun key => ?_
      rw [values target (keyPositions_lt key),values' target (keyPositions_lt key)]
      simp
    rw [← compared]
    dsimp only
    by_cases differ : ((source.keyPositions setup relationOid).any fun index => was[index]? != now[index]?) = true
    · rw [if_pos differ]
      exact iff_of_true (pushRow_ne_nil.mpr replicated) differ
    · rw [if_neg differ]
      exact iff_of_false (fun some => some rfl) differ

lemma datum_eq_iff (alike : ¬ Differs was now) :
    datum setup was = datum setup now ↔ (now = .unchangedToast → datum setup was = none) := by
  by_cases out : now = .unchangedToast
  · subst out
    simp [datum]
  · have same : was = now := by
      by_contra differ
      exact alike ⟨out,differ⟩
    simp [same,out]

/-- An update that moves a row's identity is recognised exactly if the publisher's signals fit. -/
theorem identity_changes_recognised :
    source.Recognised setup walStart relationOid key old new
      (source.changes setup walStart (.update relationOid key old new)) ↔
    source.Told setup relationOid new key old := by
  have first : source.changes setup walStart (.update relationOid key old new) =
      source.leaving setup walStart relationOid key old new ++
        source.pushChange setup relationOid .update walStart new := rfl
  have exactly : source.Recognised setup walStart relationOid key old new
      (source.changes setup walStart (.update relationOid key old new)) ↔
      (source.leaving setup walStart relationOid key old new ≠ [] ↔
        source.Moved setup relationOid (key <|> old) new) := by
    constructor
    · intro recognised
      rw [← deletes_changes]
      exact recognised.exact
    · intro exact'
      rw [← deletes_changes] at exact'
      refine ⟨by rw [deletes_changes,first],exact',fun event mem => ?_⟩
      rw [deletes_changes] at mem
      exact leaving_values mem
  rw [exactly]
  cases key with
  | some key =>
    have leaves : source.leaving setup walStart relationOid (some key) old new ≠ [] ↔
        source.Replicated setup relationOid := pushRow_ne_nil
    rw [leaves]
    refine ⟨Iff.mp,fun told => ⟨told,?_⟩⟩
    rintro ⟨_,_,target,mem,_⟩
    exact replicated_of_key mem
  | none =>
    cases old with
    | none =>
      refine iff_of_true (iff_of_false (fun emitted => emitted rfl) ?_) trivial
      rintro ⟨_,none,_⟩
      cases none
    | some old =>
      rw [leaving_old]
      refine (iff_iff_and_or_not_and_not.trans (or_congr_left and_comm)).trans (or_congr_right ?_)
      constructor
      · rintro ⟨unseen,stays⟩ target mem
        have alike := fun differs => stays ⟨old,rfl,target,mem,differs⟩
        refine ⟨alike,(datum_eq_iff alike).mp ?_⟩
        by_contra differ
        exact unseen ⟨target,mem,differ⟩
      · intro fits
        constructor
        · rintro ⟨target,mem,differ⟩
          exact differ ((datum_eq_iff (fits target mem).1).mpr (fits target mem).2)
        · rintro ⟨_,⟨⟩,target,mem,differs⟩
          exact (fits target mem).1 differs

end Update

namespace Sample

def people : TableSchema := ⟨"public","people",[⟨"id",.utf8⟩,⟨"name",.utf8⟩],["id"]⟩

def replicating : Setup where
  slot := "oxidant"
  tables := [people]
  publishOps := [.insert,.update,.delete]
  maxSlotBytes := 0
  maxBatchBytes := 0
  snapshotBatchRows := 1
  buildValue := fun _ text => .ok (some (.text text))

def relation : Relation :=
  ⟨7,"public","people",102,[⟨true,"id",25,-1⟩,⟨false,"name",25,-1⟩]⟩

def told : PostgresCdcSource := ({} : PostgresCdcSource).remember replicating relation

lemma told_keys : told.keyPositions replicating 7 = [0] := by
  have known : told.relations[7]? = some relation := by decide
  have table : replicating.table? relation.qualified = some people := by decide
  have columns : (replicating.schema.take replicating.emittedColumns).map (·.name) = ["id","name"] := rfl
  unfold keyPositions
  rw [known]
  dsimp only
  rw [table,columns]
  simp [people,findIdx?_cons]

/-- Under full replica identity, a key that stays out of line is taken for another one. -/
theorem unchanged_key_deleted :
    ¬ told.Moved replicating 7 (some [.text [97],.text [98]]) [.unchangedToast,.text [99]] ∧
    (told.changes replicating 5 (.update 7 none (some [.text [97],.text [98]]) [.unchangedToast,.text [99]])).filter
      (·.op = .delete) ≠ [] := by
  constructor
  · rintro ⟨_,⟨⟩,target,mem,differs,_⟩
    rw [told_keys,mem_singleton] at mem
    rw [mem] at differs
    exact differs (by decide)
  · rw [deletes_changes,leaving_old]
    exact ⟨0,by rw [told_keys]; exact mem_singleton_self 0,by decide⟩

end Sample
end Oxidant.Cdc.PostgresCdcSource
