import Mathlib.Data.List.Induction
import Mathlib.Data.List.Nodup

/-! Rows as lists of cells under a list of column names: picking columns by position, and finding
the cell of a name. -/
namespace Oxidant.Lib.Columns
open List
variable {V W : Type}

def pick (indices : List Nat) (row : List V) : List V := indices.filterMap fun index => row[index]?

def cell (schema : List String) (row : List V) (name : String) : Option V := row[schema.idxOf name]?

variable {indices : List Nat} {row : List V} {schema : List String}

lemma pick_append : pick (first ++ rest) row = pick first row ++ pick rest row := filterMap_append

variable {index : Nat} {name : String}

lemma pick_cons (inside : index < row.length) (indices : List Nat) :
    pick (index::indices) row = row[index]::pick indices row := by
  simp [pick,inside]

lemma length_pick (inside : ∀ index ∈ indices, index < row.length) :
    (pick indices row).length = indices.length := by
  induction indices with
  | nil => rfl
  | cons index rest ih =>
    rw [pick_cons (inside index mem_cons_self),length_cons,length_cons,
      ih fun other mem => inside other (mem_cons_of_mem _ mem)]

lemma getElem?_pick (inside : ∀ index ∈ indices, index < row.length) (place : Nat) :
    (pick indices row)[place]? = indices[place]?.bind fun index => row[index]? := by
  induction indices generalizing place with
  | nil => rfl
  | cons index rest ih =>
    have here : index < row.length := inside index mem_cons_self
    rw [pick_cons here]
    cases place with
    | zero => simp [here]
    | succ place => simpa using ih (fun other mem => inside other (mem_cons_of_mem _ mem)) place

lemma pick_pick (inside : ∀ index ∈ indices, index < row.length) (places : List Nat) :
    pick places (pick indices row) = pick (pick places indices) row := by
  induction places with
  | nil => rfl
  | cons place rest ih =>
    unfold pick at ih ⊢
    rw [filterMap_cons,filterMap_cons]
    have found := getElem?_pick inside place
    unfold pick at found
    rw [found,ih]
    cases there : indices[place]? with
    | none => rfl
    | some index =>
      have bound : index < row.length := inside index (mem_of_getElem? there)
      simp [bound]

lemma mem_pick {cell : V} : cell ∈ pick indices row ↔ ∃ index ∈ indices, row[index]? = some cell := by
  simp [pick]

lemma exists_index (named : name ∈ pick indices schema) (inside : ∀ index ∈ indices, index < schema.length) :
    ∃ index, indices[(pick indices schema).idxOf name]? = some index ∧ schema[index]? = some name := by
  have place := idxOf_lt_length_of_mem named
  have found : (pick indices schema)[(pick indices schema).idxOf name]? = some name := by
    rw [getElem?_eq_getElem place,getElem_idxOf]
  rw [getElem?_pick inside] at found
  exact Option.bind_eq_some_iff.mp found

lemma idxOf_of_getElem? (distinct : schema.Nodup) (there : schema[index]? = some name) :
    schema.idxOf name = index := by
  obtain ⟨bound,rfl⟩ := List.getElem?_eq_some_iff.mp there
  exact distinct.idxOf_getElem index bound

lemma cell_pick (distinct : schema.Nodup) (width : row.length = schema.length)
    (inside : ∀ index ∈ indices, index < schema.length) (named : name ∈ pick indices schema) :
    cell (pick indices schema) (pick indices row) name = cell schema row name := by
  obtain ⟨index,chosen,there⟩ := exists_index named inside
  unfold cell
  rw [getElem?_pick (width ▸ inside),chosen,idxOf_of_getElem? distinct there]
  rfl

lemma pick_idxOf (distinct : schema.Nodup) (width : row.length = schema.length)
    (inside : ∀ index ∈ indices, index < schema.length)
    (among : ∀ index ∈ wanted, index ∈ indices) :
    pick ((pick wanted schema).map (pick indices schema).idxOf) (pick indices row) = pick wanted row := by
  induction wanted with
  | nil => rfl
  | cons index rest ih =>
    have mem : index ∈ indices := among index mem_cons_self
    have bound : index < schema.length := inside index mem
    have bound' : index < row.length := width ▸ bound
    have rests := ih fun other there => among other (mem_cons_of_mem _ there)
    have named : schema[index] ∈ pick indices schema :=
      mem_pick.mpr ⟨index,mem,getElem?_eq_getElem bound⟩
    have found := cell_pick distinct width inside named
    unfold cell at found
    rw [distinct.idxOf_getElem index bound,getElem?_eq_getElem bound'] at found
    rw [pick_cons bound,pick_cons bound',map_cons,← rests]
    unfold pick at found ⊢
    rw [filterMap_cons,found]

def whose (shows : String → Bool) (schema : List String) : List Nat :=
  (schema.zipIdx.filter fun entry => shows entry.1).map Prod.snd

lemma whose_inside (mem : index ∈ whose shows schema) : index < schema.length := by
  obtain ⟨⟨name,place⟩,shown,rfl⟩ := mem_map.mp mem
  obtain ⟨bound,_⟩ := List.getElem?_eq_some_iff.mp (mem_zipIdx_iff_getElem?.mp (mem_filter.mp shown).1)
  exact bound

lemma whose_concat :
    whose shows (schema ++ [name]) = whose shows schema ++ if shows name then [schema.length] else [] := by
  unfold whose
  rw [zipIdx_append,filter_append,map_append]
  congr 1
  cases shown : shows name <;> simp [shown]

lemma pick_whose (shows : String → Bool) (width : row.length = schema.length) :
    pick (whose shows schema) row = ((schema.zip row).filter fun entry => shows entry.1).map Prod.snd := by
  induction schema using List.reverseRecOn generalizing row with
  | nil => rfl
  | append_singleton schema name ih =>
    rcases eq_nil_or_concat row with rfl | ⟨front,last,rfl⟩
    · simp at width
    rw [concat_eq_append] at width ⊢
    have same : front.length = schema.length := by simpa using width
    have old : pick (whose shows schema) (front ++ [last]) = pick (whose shows schema) front := by
      apply filterMap_congr
      intro index mem
      rw [getElem?_append_left (same ▸ whose_inside mem)]
    have added : pick (if shows name then [schema.length] else []) (front ++ [last]) =
        if shows name then [last] else [] := by
      cases shows name with
      | false => rfl
      | true => simp [pick,← same]
    rw [whose_concat,pick_append,old,ih same,added,zip_append same.symm,filter_append,map_append]
    congr 1
    cases shown : shows name <;> simp [shown]

lemma pick_whose_self (shows : String → Bool) (schema : List String) :
    pick (whose shows schema) schema = schema.filter shows := by
  rw [pick_whose shows rfl]
  induction schema with
  | nil => rfl
  | cons name rest ih =>
    rw [zip_cons_cons,filter_cons,filter_cons]
    cases shown : shows name <;> simp [ih]

end Oxidant.Lib.Columns
