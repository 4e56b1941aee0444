import Mathlib.Data.List.Nodup

/-! Tables whose rows are told apart by a key: what is stored under a key says all there is to say
about them, whatever the order of the rows. -/
namespace Oxidant.Lib.Keyed
open List

variable {κ τ : Type} (key : τ → κ)

def Distinct (table : List τ) : Prop := (table.map key).Nodup

lemma Distinct.filter {key : τ → κ} (distinct : Distinct key table)
    (keep : τ → Bool) : Distinct key (table.filter keep) :=
  distinct.sublist (filter_sublist.map key)

variable [DecidableEq κ]

def row (table : List τ) (wanted : κ) : Option τ := table.find? fun found => key found = wanted

variable {key} {table other : List τ} {wanted : κ} {found : τ}

lemma row_key (there : row key table wanted = some found) : key found = wanted := by
  have same := find?_some there
  simpa using same

lemma row_mem (there : row key table wanted = some found) : found ∈ table :=
  mem_of_find?_eq_some there

lemma row_eq_none : row key table wanted = none ↔ ∀ found ∈ table, key found ≠ wanted := by simp [row]

lemma row_cons_of_ne (apart : key found ≠ wanted) : row key (found::table) wanted = row key table wanted := by
  simp [row,apart]

section
variable (distinct : Distinct key table)
include distinct

lemma Distinct.row_of_mem (mem : found ∈ table) : row key table (key found) = some found := by
  cases there : row key table (key found) with
  | none => exact absurd rfl (row_eq_none.mp there found mem)
  | some other => rw [inj_on_of_nodup_map distinct (row_mem there) mem (row_key there)]

lemma Distinct.row_eq_some : row key table wanted = some found ↔ found ∈ table ∧ key found = wanted := by
  constructor
  · exact fun there => ⟨row_mem there,row_key there⟩
  · rintro ⟨mem,rfl⟩
    exact distinct.row_of_mem mem

lemma Distinct.row_filter (keep : τ → Bool) (wanted : κ) :
    row key (table.filter keep) wanted = (row key table wanted).filter keep := by
  apply Option.ext
  intro found
  rw [(distinct.filter keep).row_eq_some,Option.filter_eq_some_iff,distinct.row_eq_some,mem_filter]
  tauto

lemma Distinct.filter_key (wanted : κ) :
    table.filter (fun found => key found = wanted) = (row key table wanted).toList := by
  induction table with
  | nil => rfl
  | cons found rest ih =>
    obtain ⟨absent,distinct⟩ := nodup_cons.mp distinct
    by_cases same : key found = wanted
    · subst same
      have none : row key rest (key found) = .none :=
        row_eq_none.mpr fun other mem equal => absent (equal ▸ mem_map_of_mem mem)
      rw [filter_cons_of_pos (by simp),ih distinct,none]
      simp [row]
    · rw [filter_cons_of_neg (by simpa using same),row_cons_of_ne same,ih distinct]

end

lemma row_append :
    row key (table ++ other) wanted = (row key table wanted).or (row key other wanted) := find?_append

lemma Distinct.perm (distinct : Distinct key table) (distinct' : Distinct key other)
    (same : ∀ wanted, row key table wanted = row key other wanted) : table.Perm other := by
  rw [perm_ext_iff_of_nodup distinct.of_map distinct'.of_map]
  intro found
  constructor
  · intro mem
    have there := distinct.row_of_mem mem
    rw [same] at there
    exact row_mem there
  · intro mem
    have there := distinct'.row_of_mem mem
    rw [← same] at there
    exact row_mem there

lemma Distinct.row_perm (distinct : Distinct key table) (perm : table.Perm other)
    (wanted : κ) : row key table wanted = row key other wanted := by
  have distinct' : Distinct key other := (perm.map key).nodup_iff.mp distinct
  apply Option.ext
  intro found
  rw [distinct.row_eq_some,distinct'.row_eq_some,perm.mem_iff]

section FilterMap
variable {α : Type} {name : α → κ} {items : List α} {make : α → Option τ}

omit [DecidableEq κ] in
lemma Distinct.filterMap (distinct : Distinct name items)
    (named : ∀ item ∈ items, ∀ made, make item = some made → key made = name item) :
    Distinct key (items.filterMap make) := by
  induction items with
  | nil => exact nodup_nil
  | cons item rest ih =>
    obtain ⟨absent,distinct⟩ := nodup_cons.mp distinct
    have ih := ih distinct fun other mem => named other (mem_cons_of_mem _ mem)
    rw [filterMap_cons]
    split
    · exact ih
    · next made there =>
      refine nodup_cons.mpr ⟨fun mem => absent ?_,ih⟩
      obtain ⟨found,among,same⟩ := mem_map.mp mem
      obtain ⟨other,later,makes⟩ := mem_filterMap.mp among
      rw [named item mem_cons_self made there,named other (mem_cons_of_mem _ later) found makes] at same
      rw [← same]
      exact mem_map_of_mem later

lemma Distinct.row_filterMap (distinct : Distinct name items)
    (named : ∀ item ∈ items, ∀ made, make item = some made → key made = name item) (wanted : κ) :
    row key (items.filterMap make) wanted = (row name items wanted).bind make := by
  apply Option.ext
  intro found
  rw [(distinct.filterMap named).row_eq_some,Option.bind_eq_some_iff,mem_filterMap]
  constructor
  · rintro ⟨⟨item,mem,makes⟩,rfl⟩
    refine ⟨item,?_,makes⟩
    rw [named item mem found makes]
    exact distinct.row_of_mem mem
  · rintro ⟨item,there,makes⟩
    have mem := row_mem there
    exact ⟨⟨item,mem,makes⟩,(named item mem found makes).trans (row_key there)⟩

end FilterMap

section FirstPerKey
variable {α : Type} (key : α → κ) (before : α → α → Bool)

/-- The row that comes first among those of its key; of rows ordered neither way, the earlier one.
-/
def firstPerKey : List α → List α
  | [] => []
  | item::rest => match row key (firstPerKey rest) (key item) with
    | none => item::firstPerKey rest
    | some other => if before other item then firstPerKey rest
      else item::(firstPerKey rest).filter fun found => key found ≠ key item

variable {key before} {items : List α} {wanted : κ}

lemma firstPerKey_distinct (items : List α) : Distinct key (firstPerKey key before items) := by
  induction items with
  | nil => exact nodup_nil
  | cons item rest ih =>
    unfold firstPerKey
    split
    · next none =>
      refine nodup_cons.mpr ⟨fun mem => ?_,ih⟩
      obtain ⟨found,there,same⟩ := mem_map.mp mem
      exact row_eq_none.mp none found there same
    · split
      · exact ih
      · refine nodup_cons.mpr ⟨fun mem => ?_,ih.filter _⟩
        obtain ⟨found,there,same⟩ := mem_map.mp mem
        simp [same] at there

lemma mem_of_mem_firstPerKey {found : α} (mem : found ∈ firstPerKey key before items) : found ∈ items := by
  induction items with
  | nil => cases mem
  | cons item rest ih =>
    unfold firstPerKey at mem
    split at mem
    · rcases mem_cons.mp mem with rfl | later
      · exact mem_cons_self
      · exact mem_cons_of_mem _ (ih later)
    · split at mem
      · exact mem_cons_of_mem _ (ih mem)
      · rcases mem_cons.mp mem with rfl | later
        · exact mem_cons_self
        · exact mem_cons_of_mem _ (ih (mem_of_mem_filter later))

lemma row_firstPerKey_other {item : α} (apart : key item ≠ wanted) :
    row key (firstPerKey key before (item::rest)) wanted = row key (firstPerKey key before rest) wanted := by
  rw [firstPerKey]
  split
  · exact row_cons_of_ne apart
  · split
    · rfl
    · rw [row_cons_of_ne apart,(firstPerKey_distinct rest).row_filter]
      cases there : row key (firstPerKey key before rest) wanted with
      | none => rfl
      | some found =>
        have same := row_key there
        simp [same,Ne.symm apart]

lemma row_firstPerKey
    (ascending : (items.filter fun item => key item = wanted).Pairwise
        fun earlier later => before later earlier = true) :
    row key (firstPerKey key before items) wanted = (items.filter fun item => key item = wanted).getLast? := by
  induction items with
  | nil => rfl
  | cons item rest ih =>
    by_cases same : key item = wanted
    · subst same
      simp only [decide_true,filter_cons_of_pos] at ascending ⊢
      obtain ⟨first,ascending⟩ := pairwise_cons.mp ascending
      have ih := ih ascending
      rw [firstPerKey,ih]
      cases last : (rest.filter fun other => key other = key item).getLast? with
      | none =>
        have empty := getLast?_eq_none_iff.mp last
        simp [row,empty]
      | some other =>
        have mem := mem_of_getLast? last
        rw [getLast?_cons,last]
        simp only [first other mem,if_true]
        rw [ih,last]
        rfl
    · rw [row_firstPerKey_other same]
      simp only [same,decide_false,Bool.false_eq_true,not_false_eq_true,filter_cons_of_neg] at ascending ⊢
      exact ih ascending

end FirstPerKey

end Oxidant.Lib.Keyed
