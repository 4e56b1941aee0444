import Mathlib.Data.List.Basic

/-! What items with increasing keys carry between two keys: each item counts as a whole, by its
own key, whatever was read of it. -/
namespace Oxidant.Lib
open List hiding after

section Window
variable {α β : Type} (key : α → Nat) (load : α → List β)

def since (first : Nat) (items : List α) : List β :=
  (items.filter fun item => decide (first < key item)).flatMap load

def window (first last : Nat) (items : List α) : List β :=
  (items.filter fun item => decide (first < key item) && decide (key item ≤ last)).flatMap load

def Ascending (items : List α) : Prop := items.Pairwise fun one other => key one < key other

variable {key load} {first middle last : Nat} {items : List α}

lemma Ascending.take_lt_drop (ascending : Ascending key items)
    (before : one ∈ items.take place) (behind : other ∈ items.drop place) : key one < key other := by
  rw [← take_append_drop place items] at ascending
  exact (pairwise_append.mp ascending).2.2 one before other behind

lemma Ascending.around (ascending : Ascending key items) (there : items[place]? = some item) :
    (∀ one ∈ items.take place, key one < key item) ∧ ∀ other ∈ items.drop (place + 1), key item < key other := by
  have found := List.getElem?_eq_some_iff.mp there
  constructor
  · intro one before
    apply ascending.take_lt_drop before
    rw [mem_drop_iff_getElem]
    exact ⟨0,by simpa using found.1,by simpa using found.2⟩
  · intro other behind
    apply ascending.take_lt_drop _ behind
    rw [take_add_one,there]
    simp

lemma Ascending.le_drop (ascending : Ascending key items) (there : items[place]? = some item) (low : place ≤ start)
    (behind : other ∈ items.drop start) : key item ≤ key other := by
  obtain ⟨inside,same⟩ := List.getElem?_eq_some_iff.mp there
  rw [show start = place + (start - place) by omega,← drop_drop] at behind
  have behind := mem_of_mem_drop behind
  rw [drop_eq_getElem_cons inside,mem_cons] at behind
  rcases behind with here | later
  · exact Nat.le_of_eq (by rw [here,same])
  · exact Nat.le_of_lt ((ascending.around there).2 other later)

lemma since_snoc (item : α) :
    since key load first (items ++ [item]) =
      since key load first items ++ if first < key item then load item else [] := by
  unfold since
  split <;> next passed => simp [passed]

lemma since_eq_nil : since key load first items = [] ↔ ∀ item ∈ items, first < key item → load item = [] := by
  simp [since]

lemma window_eq_nil :
    window key load first last items = [] ↔
    ∀ item ∈ items, first < key item → key item ≤ last → load item = [] := by
  simp [window]

lemma window_until (before : List α)
    (inside : ∀ item ∈ before, load item ≠ [] → first < key item → key item ≤ last)
    (outside : ∀ item ∈ after, key item ≤ first ∨ last < key item) :
    window key load first last (before ++ after) = since key load first before := by
  have none : window key load first last after = [] := by
    rw [window_eq_nil]
    intro item mem past within
    rcases outside item mem with old | beyond <;> omega
  have whole : window key load first last before = since key load first before := by
    unfold window since
    induction before with
    | nil => rfl
    | cons item rest ih =>
      have ih := ih fun other mem => inside other (mem_cons_of_mem _ mem)
      have here := inside item mem_cons_self
      by_cases past : first < key item
      · by_cases within : key item ≤ last
        · simp [past,within,ih]
        · have empty : load item = [] := by
            by_contra some
            exact within (here some past)
          simp [past,within,ih,empty]
      · simp [past,ih]
  unfold window at none whole ⊢
  rw [filter_append,flatMap_append,none,whole,append_nil]

lemma window_append (ascending : Ascending key items) (lower : first ≤ middle) (upper : middle ≤ last) :
    window key load first middle items ++ window key load middle last items = window key load first last items := by
  unfold window
  induction items with
  | nil => rfl
  | cons item rest ih =>
    obtain ⟨later,ascending⟩ := pairwise_cons.mp ascending
    have ih := ih ascending
    by_cases past : middle < key item
    · -- Everything from here on is past the middle.
      have none : (rest.filter fun item => decide (first < key item) &&
          decide (key item ≤ middle)) = [] := by
        rw [filter_eq_nil_iff]
        intro other mem
        have := later other mem
        simp
        omega
      have outside : ¬ key item ≤ middle := by omega
      have counted : first < key item := by omega
      by_cases within : key item ≤ last
      · simp [none,past,within,outside,counted] at ih ⊢
        exact ih
      · simp [none,past,within,outside,counted] at ih ⊢
        exact ih
    · have inside : key item ≤ middle := by omega
      have within : key item ≤ last := by omega
      by_cases counted : first < key item <;> simp [past,inside,within,counted] at ih ⊢ <;> exact ih

end Window
end Oxidant.Lib
