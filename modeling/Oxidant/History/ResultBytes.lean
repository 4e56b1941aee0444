import Oxidant.Lib.Steps
import Mathlib.Algebra.BigOperators.Group.List.Basic
import Mathlib.Algebra.Ring.Nat

/-! The byte counter of the spilled results, beside a directory that the spill thread, unlinks of
other threads and reboots share. -/
namespace Oxidant.History
open Lib List

/-- A job of the spill thread. Once its file is published the statement is looked at again. -/
inductive SpillStage where
  | idle
  | writing (id : String)
  | landed (id : String) (bytes : Nat) (live : Option Bool)

/-- `measured` and `removed` are unlinks under way: the files they have looked at, and the sizes of
those that are gone and not yet subtracted. -/
structure ResultStore where
  files : List (String × Nat)
  onDiskBytes : Nat
  spill : SpillStage := .idle
  measured : List (String × Nat) := []
  removed : List Nat := []

def scanBytes (files : List (String × Nat)) : Nat := (files.map Prod.snd).sum

/-- A reconcile pass is an unlink of each file that no statement names. -/
inductive ResultEvent where
  | handle (id : String) (live : Bool)
  | write (bytes : Option Nat)
  | stillLive (live : Bool)
  | finish
  | unlink (id : String)
  | removeFile (id : String) (len : Nat)
  | subtract (len : Nat)
  | reboot

namespace ResultStore

def boot (files : List (String × Nat)) : ResultStore where
  files
  onDiskBytes := scanBytes files

def metadata (store : ResultStore) (id : String) : Option (String × Nat) := store.files.find? (·.1 = id)

def without (store : ResultStore) (id : String) : List (String × Nat) := store.files.eraseP (·.1 = id)

def step (store : ResultStore) : ResultEvent → ResultStore
  | .handle id live => match store.spill with
    | .idle => if live then {store with spill := .writing id} else store
    | _ => store
  | .write bytes => match store.spill,bytes with
    | .writing id,some bytes => {store with files := (id,bytes)::store.without id,spill := .landed id bytes none}
    | .writing _,none => {store with spill := .idle}
    | _,_ => store
  | .stillLive live => match store.spill with
    | .landed id bytes none => {store with spill := .landed id bytes (some live)}
    | _ => store
  | .finish => match store.spill with
    | .landed _ bytes (some true) => {store with onDiskBytes := store.onDiskBytes + bytes,spill := .idle}
    | .landed id _ (some false) => {store with files := store.without id,spill := .idle}
    | _ => store
  | .unlink id => {store with measured := store.measured ++ (store.metadata id).toList}
  | .removeFile id len =>
    if (id,len) ∈ store.measured then
      {store with
        files := store.without id
        measured := store.measured.erase (id,len)
        removed := if (store.metadata id).isSome then len::store.removed else store.removed}
    else store
  | .subtract len =>
    if len ∈ store.removed then
      {store with onDiskBytes := store.onDiskBytes - len,removed := store.removed.erase len}
    else store
  | .reboot => boot store.files

/-- The file of a spill that is not counted yet. -/
def published (store : ResultStore) : Option (String × Nat) :=
  match store.spill with
  | .landed id bytes _ => some (id,bytes)
  | _ => none

/-- No spill is in flight, and no unlink between the file and the counter. -/
def AtRest (store : ResultStore) : Prop := store.spill = .idle ∧ store.removed = []

/-- A file is published where there is none. What an unlink removes has the size it has measured, and
is not the file of a spill that is not counted yet. -/
def Orderly (store : ResultStore) : ResultEvent → Prop
  | .write _ => ∀ id, store.spill = .writing id → store.metadata id = none
  | .removeFile id len => (∀ file ∈ store.metadata id, file.2 = len) ∧
      ∀ file ∈ store.published, file.1 ≠ id
  | _ => True

variable {store : ResultStore} {id other : String}

lemma scanBytes_without (found : store.metadata id = some file) :
    scanBytes (store.without id) + file.2 = scanBytes store.files := by
  unfold metadata without at *
  generalize store.files = files at *
  induction files with
  | nil => cases found
  | cons first rest ih =>
    unfold scanBytes at ih ⊢
    by_cases here : first.1 = id
    · simp_all [Nat.add_comm]
    · simp_all [Nat.add_assoc]

lemma without_eq (none : store.metadata id = none) : store.without id = store.files :=
  eraseP_of_forall_not fun file mem => by simpa using find?_eq_none.mp none file mem

lemma find?_without (apart : other ≠ id) : (store.without id).find? (·.1 = other) = store.metadata other := by
  unfold metadata without
  induction store.files with
  | nil => rfl
  | cons first rest ih =>
    by_cases here : first.1 = id
    · simp [here,apart.symm]
    · simp [here,find?_cons,ih]

/-- The counter lacks the file of a spill not counted yet, and still has the files not subtracted yet. -/
structure Balanced (store : ResultStore) : Prop where
  bytes : store.onDiskBytes + store.published.elim 0 Prod.snd = scanBytes store.files + store.removed.sum
  there : ∀ file ∈ store.published, store.metadata file.1 = some file

lemma balanced_boot (files : List (String × Nat)) : (boot files).Balanced := ⟨rfl,nofun⟩

lemma Balanced.step (balanced : store.Balanced) (event) (orderly : store.Orderly event) :
    (store.step event).Balanced := by
  have ⟨bytes,there⟩ := balanced
  cases event with
  | handle id live =>
    dsimp only [ResultStore.step]
    split
    · next idle =>
      split
      · simp only [published,idle] at bytes
        exact ⟨bytes,nofun⟩
      · exact balanced
    · exact balanced
  | write size =>
    dsimp only [ResultStore.step]
    split
    · next id size writing =>
      have none := without_eq (orderly id writing)
      simp only [published,writing,Option.elim_none] at bytes
      constructor
      · simp only [published,none,scanBytes,map_cons,sum_cons,Option.elim_some] at bytes ⊢
        omega
      · rintro file ⟨⟩
        simp [metadata]
    · next writing =>
      simp only [published,writing] at bytes
      exact ⟨bytes,nofun⟩
    · exact balanced
  | stillLive live =>
    dsimp only [ResultStore.step]
    split
    · next landed =>
      simp only [published,landed] at bytes there
      exact ⟨bytes,there⟩
    · exact balanced
  | finish =>
    dsimp only [ResultStore.step]
    split
    · next landed =>
      simp only [published,landed] at bytes
      exact ⟨bytes,nofun⟩
    · next id size landed =>
      simp only [published,landed,Option.elim_some] at bytes there
      have gone : scanBytes (store.without id) + size = _ := scanBytes_without (there _ rfl)
      refine ⟨?_,nofun⟩
      simp only [published,Option.elim_none]
      omega
    · exact balanced
  | unlink id => exact ⟨bytes,there⟩
  | removeFile id len =>
    dsimp only [ResultStore.step]
    split
    · refine ⟨?_,fun file mem => (find?_without (orderly.2 file mem)).trans (there file mem)⟩
      cases found : store.metadata id with
      | none =>
        rw [without_eq found]
        exact bytes
      | some file =>
        have gone := scanBytes_without found
        have same := orderly.1 file found
        simp only [published,Option.isSome_some,if_true,sum_cons] at bytes ⊢
        omega
    · exact balanced
  | subtract len =>
    dsimp only [ResultStore.step]
    split
    · next mem =>
      have rest := sum_erase mem
      have counted : store.published.elim 0 Prod.snd ≤ scanBytes store.files := by
        cases spilled : store.published with
        | none => exact Nat.zero_le _
        | some file => exact Nat.le.intro ((Nat.add_comm _ _).trans (scanBytes_without (there file spilled)))
      refine ⟨?_,there⟩
      simp only [published] at bytes counted ⊢
      omega
    · exact balanced
  | reboot => exact balanced_boot _

/-- In every orderly run from a boot, with no spill in flight, the counter is the size of the published
files and of those whose unlink is yet to subtract them. At rest there are none of the latter. -/
theorem counter_exact_at_rest (files : List (String × Nat)) (events : List ResultEvent)
    (orderly : Steps.Meets step Orderly (boot files) events)
    (idle : (Steps.run step (boot files) events).spill = .idle) :
    (Steps.run step (boot files) events).onDiskBytes = scanBytes (Steps.run step (boot files) events).files +
        (Steps.run step (boot files) events).removed.sum ∧
      ((Steps.run step (boot files) events).AtRest →
        (Steps.run step (boot files) events).onDiskBytes = scanBytes (Steps.run step (boot files) events).files) := by
  have bytes := (Steps.run_invariant step Orderly Balanced (fun _ event held => held.step event) _ _
    orderly (balanced_boot files)).bytes
  simp only [published,idle,Option.elim_none,Nat.add_zero] at bytes
  refine ⟨bytes,fun rest => ?_⟩
  rw [bytes,rest.2]
  rfl

namespace Sample

def spill (size : Nat) : List ResultEvent := [.handle "stmt-1" true,.write (some size),.stillLive true]

def unlink (size : Nat) : List ResultEvent := [.unlink "stmt-1",.removeFile "stmt-1" size,.subtract size]

theorem unlinked_after_counted : (Steps.run step (boot []) (spill 5 ++ .finish::unlink 5)).onDiskBytes = 0 := by
  refine (counter_exact_at_rest [] _ ?_ rfl).2 ⟨rfl,rfl⟩
  simp [Steps.Meets,Orderly,spill,unlink,boot,step,metadata,without,published]

/-- A file unlinked between its publication and its count is subtracted from nothing. -/
theorem unlinked_before_counted :
    (Steps.run step (boot []) (spill 5 ++ unlink 5 ++ [.finish])).AtRest ∧
    (Steps.run step (boot []) (spill 5 ++ unlink 5 ++ [.finish])).onDiskBytes = 5 ∧
    (Steps.run step (boot []) (spill 5 ++ unlink 5 ++ [.finish])).files = [] :=
  ⟨⟨rfl,rfl⟩,rfl,rfl⟩

end Sample
end ResultStore
end Oxidant.History
