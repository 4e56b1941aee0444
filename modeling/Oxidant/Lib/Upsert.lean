import Oxidant.Lib.Keyed
import Mathlib.Order.MinMax

/-! Change events merged into a keyed table by their sequence values. Of a batch only the last event
of each key counts; it replaces or removes a row that is behind it. -/
namespace Oxidant.Lib
open List hiding merge
open Keyed

/-- Every row of the left side with each match on the right, or with none. -/
def leftJoin {α β : Type} (on : α → β → Bool) (left : List α) (right : List β) : List (α × Option β) :=
  left.flatMap fun item => match right.filter (on item) with
    | [] => [(item,none)]
    | found => found.map fun other => (item,some other)

lemma mem_leftJoin (mem : (item,found) ∈ leftJoin on left right) :
    item ∈ left ∧ ∀ other, found = some other → other ∈ right := by
  obtain ⟨one,there,among⟩ := mem_flatMap.mp mem
  split at among
  · cases mem_singleton.mp among
    exact ⟨there,nofun⟩
  · next filtered =>
    obtain ⟨other,here,same⟩ := mem_map.mp among
    cases same
    refine ⟨there,fun _ same => ?_⟩
    cases same
    exact mem_of_mem_filter here

/-- What a merge reads of its events and rows. `make` is the row an event leaves, over the one it
replaces if any. -/
structure Upsert (κ σ β τ : Type) where
  key : β → κ
  seq : β → σ
  deletes : β → Bool
  truncates : β → Bool
  rowKey : τ → κ
  rowSeq : τ → σ
  make : β → Option τ → τ

namespace Upsert
variable {κ σ β τ : Type} [DecidableEq κ] [LinearOrder σ] (upsert : Upsert κ σ β τ)

def cut (batch : List β) : Option σ := ((batch.filter upsert.truncates).map upsert.seq).max?

def past (cut : Option σ) (seq : σ) : Bool := cut.all (· < seq)

def applicable (batch : List β) : List β :=
  batch.filter fun event => !upsert.truncates event && past (upsert.cut batch) (upsert.seq event)

def live (batch : List β) (table : List τ) : List τ :=
  table.filter fun row => past (upsert.cut batch) (upsert.rowSeq row)

def kept (latest : List β) (live : List τ) : List τ :=
  live.filter fun row => !latest.any fun event =>
    decide (upsert.key event = upsert.rowKey row) && decide (upsert.rowSeq row < upsert.seq event)

def settle (event : β) (base : Option τ) : Option τ :=
  if !upsert.deletes event && base.all (fun row => decide (upsert.rowSeq row < upsert.seq event))
  then some (upsert.make event base) else none

def applied (latest : List β) (live : List τ) : List τ :=
  (leftJoin (fun event row => decide (upsert.rowKey row = upsert.key event)) latest live).filterMap
    fun (event,base) => upsert.settle event base

def merge (before : β → β → Bool) (batch : List β) (table : List τ) : List τ :=
  let latest := firstPerKey upsert.key before (upsert.applicable batch)
  upsert.kept latest (upsert.live batch table) ++ upsert.applied latest (upsert.live batch table)

def fate (base : Option τ) : Option β → Option τ
  | none => base
  | some event => if base.any (fun row => decide (upsert.seq event ≤ upsert.rowSeq row)) then base
    else if upsert.deletes event then none else some (upsert.make event base)

/-- The rows an event makes over rows of its key are stored under that key, with its sequence
value. -/
structure Lawful (event : β) : Prop where
  make_key : ∀ base, (∀ found, base = some found → upsert.rowKey found = upsert.key event) →
    upsert.rowKey (upsert.make event base) = upsert.key event
  make_seq : ∀ base, upsert.rowSeq (upsert.make event base) = upsert.seq event

variable {upsert} {before : β → β → Bool} {batch : List β} {table : List τ}

lemma applied_eq {live : List τ} (distinct : Distinct upsert.rowKey live) :
    upsert.applied latest live = latest.filterMap fun event =>
      upsert.settle event (row upsert.rowKey live (upsert.key event)) := by
  unfold applied leftJoin
  rw [filterMap_flatMap,filterMap_eq_flatMap_toList]
  congr 1
  funext event
  rw [distinct.filter_key]
  cases row upsert.rowKey live (upsert.key event) with
  | none => cases settled : upsert.settle event none <;> simp [settled]
  | some found => cases settled : upsert.settle event (some found) <;> simp [settled]

lemma settle_key {live : List τ} (lawful : upsert.Lawful event)
    (settled : upsert.settle event (row upsert.rowKey live (upsert.key event)) = some made) :
    upsert.rowKey made = upsert.key event := by
  unfold settle at settled
  split at settled
  · cases settled
    exact lawful.make_key _ fun _ there => row_key there
  · cases settled

section Latest
variable {latest : List β} {live : List τ}

section
variable (distinct : Distinct upsert.rowKey live) (once : Distinct upsert.key latest)
include distinct once

lemma row_applied (lawful : ∀ event ∈ latest, upsert.Lawful event) :
    row upsert.rowKey (upsert.applied latest live) wanted = (row upsert.key latest wanted).bind fun event =>
        upsert.settle event (row upsert.rowKey live wanted) := by
  rw [applied_eq distinct,once.row_filterMap fun event mem made settled => settle_key (lawful event mem) settled]
  cases there : row upsert.key latest wanted with
  | none => rfl
  | some event =>
    change upsert.settle event _ = upsert.settle event _
    rw [row_key there]

lemma row_kept :
    row upsert.rowKey (upsert.kept latest live) wanted =
      (row upsert.rowKey live wanted).filter fun found =>
        !(row upsert.key latest wanted).any fun event => decide (upsert.rowSeq found < upsert.seq event) := by
  unfold kept
  rw [distinct.row_filter]
  cases there : row upsert.rowKey live wanted with
  | none => rfl
  | some found =>
    have same := row_key there
    have counted : (latest.any fun event => decide (upsert.key event = upsert.rowKey found) &&
        decide (upsert.rowSeq found < upsert.seq event)) =
        (row upsert.key latest wanted).any fun event =>
          decide (upsert.rowSeq found < upsert.seq event) := by
      rw [same,Bool.eq_iff_iff,any_eq_true,Option.any_eq_true]
      constructor
      · rintro ⟨event,mem,passes⟩
        simp only [Bool.and_eq_true,decide_eq_true_eq] at passes ⊢
        exact ⟨event,once.row_eq_some.mpr ⟨mem,passes.1⟩,passes.2⟩
      · rintro ⟨event,there,passes⟩
        exact ⟨event,row_mem there,by simpa [row_key there] using passes⟩
    simp only [Option.filter_some,counted]

lemma row_kept_applied (lawful : ∀ event ∈ latest, upsert.Lawful event) :
    row upsert.rowKey (upsert.kept latest live ++ upsert.applied latest live) wanted =
      upsert.fate (row upsert.rowKey live wanted) (row upsert.key latest wanted) := by
  rw [row_append,row_kept distinct once,row_applied distinct once lawful]
  cases row upsert.key latest wanted with
  | none => cases row upsert.rowKey live wanted <;> rfl
  | some event => cases row upsert.rowKey live wanted with
    | none => cases removes : upsert.deletes event <;> simp [fate,settle,removes]
    | some found =>
      by_cases behind : upsert.rowSeq found < upsert.seq event
      · cases removes : upsert.deletes event <;>
          simp [fate,settle,removes,behind,not_le.mpr behind,Option.filter_some]
      · simp [fate,behind,not_lt.mp behind]

lemma kept_applied_distinct (lawful : ∀ event ∈ latest, upsert.Lawful event) :
    Distinct upsert.rowKey (upsert.kept latest live ++ upsert.applied latest live) := by
  have made : Distinct upsert.rowKey (upsert.applied latest live) := by
    rw [applied_eq distinct]
    exact once.filterMap fun event mem made settled => settle_key (lawful event mem) settled
  unfold Distinct
  rw [map_append]
  refine nodup_append.mpr ⟨distinct.filter _,made,?_⟩
  rintro wanted kept other new rfl
  obtain ⟨found,old,rfl⟩ := mem_map.mp kept
  obtain ⟨result,among,same⟩ := mem_map.mp new
  -- The event that made a row of this key is past the row that was kept.
  have there := made.row_of_mem among
  rw [same,row_applied distinct once lawful] at there
  obtain ⟨event,last,settled⟩ := Option.bind_eq_some_iff.mp there
  have stored := (distinct.filter _).row_of_mem old
  change row upsert.rowKey (upsert.kept latest live) (upsert.rowKey found) = some found at stored
  rw [row_kept distinct once,last,Option.filter_eq_some_iff] at stored
  rw [stored.1] at settled
  unfold settle at settled
  simp only [Option.any_some,Bool.not_eq_true',decide_eq_false_iff_not] at stored
  simp [stored.2] at settled

end

end Latest

lemma row_live (distinct : Distinct upsert.rowKey table) :
    row upsert.rowKey (upsert.live batch table) wanted = (row upsert.rowKey table wanted).filter fun found =>
        past (upsert.cut batch) (upsert.rowSeq found) := distinct.row_filter _ _

lemma merge_distinct (distinct : Distinct upsert.rowKey table) (lawful : ∀ event ∈ batch, upsert.Lawful event) :
    Distinct upsert.rowKey (upsert.merge before batch table) :=
  kept_applied_distinct (distinct.filter _) (firstPerKey_distinct _) fun event mem =>
    lawful event (mem_of_mem_filter (mem_of_mem_firstPerKey mem))

lemma row_merge (distinct : Distinct upsert.rowKey table) (lawful : ∀ event ∈ batch, upsert.Lawful event)
    (wanted : κ) :
    row upsert.rowKey (upsert.merge before batch table) wanted =
      upsert.fate
        ((row upsert.rowKey table wanted).filter fun found => past (upsert.cut batch) (upsert.rowSeq found))
        (row upsert.key (firstPerKey upsert.key before (upsert.applicable batch)) wanted) := by
  rw [← row_live distinct]
  exact row_kept_applied (distinct.filter _) (firstPerKey_distinct _) (fun event mem =>
    lawful event (mem_of_mem_filter (mem_of_mem_firstPerKey mem)))

end Upsert
end Oxidant.Lib
