import Mathlib.Data.List.TakeWhile

/-! Lists in the ascending order of a key, read a stretch at a time. -/
namespace Oxidant.Lib
open List hiding count
variable {α : Type} {key : α → Int}

def Rising (key : α → Int) (items : List α) : Prop := items.Pairwise fun one other => key one < key other

def stretch (key : α → Int) (first last : Int) (items : List α) : List α :=
  items.filter fun item => decide (first ≤ key item) && decide (key item < last)

lemma takeWhile_take (items : List α) :
    (items.take count).takeWhile chosen = (items.takeWhile chosen).take count := by
  induction items generalizing count with
  | nil => simp
  | cons item items ih =>
    cases count with
    | zero => simp
    | succ count =>
      rw [take_succ_cons,takeWhile_cons,takeWhile_cons]
      split
      · rw [ih,take_succ_cons]
      · simp

variable {items : List α} (ascending : Rising key items)
include ascending

lemma takeWhile_below :
    items.takeWhile (fun item => decide (key item < last)) = items.filter fun item => decide (key item < last) := by
  induction items with
  | nil => rfl
  | cons item items ih =>
    obtain ⟨before,rest⟩ := pairwise_cons.mp ascending
    by_cases below : key item < last
    · simp only [takeWhile_cons,filter_cons,below,decide_true,if_true]
      rw [ih rest]
    · have none : items.filter (fun other => decide (key other < last)) = [] := by
        rw [filter_eq_nil_iff]
        intro other mem
        have after := before other mem
        simp only [decide_eq_true_eq]
        omega
      simp [below,none]

lemma stretch_ascending (first last : Int) : Rising key (stretch key first last items) :=
  ascending.sublist filter_sublist

lemma takeWhile_read (first last : Int) (count : Nat) :
    ((items.filter fun item => decide (first ≤ key item)).take count).takeWhile
      (fun item => decide (key item < last)) = (stretch key first last items).take count := by
  rw [takeWhile_take,takeWhile_below (ascending.sublist filter_sublist),filter_filter]
  congr 1
  apply filter_congr
  intro item _
  rw [Bool.and_comm]

lemma stretch_after {read rest : List α} (split : stretch key first last items = (read ++ [item]) ++ rest) :
    stretch key (key item + 1) last items = rest := by
  have sorted := stretch_ascending ascending first last
  rw [split] at sorted
  obtain ⟨before,_,between⟩ := pairwise_append.mp sorted
  have bounds {other : α} (mem : other ∈ (read ++ [item]) ++ rest) : first ≤ key other ∧ key other < last := by
    rw [← split] at mem
    simpa [stretch] using (mem_filter.mp mem).2
  have inner : stretch key (key item + 1) last items =
      (stretch key first last items).filter fun other => decide (key item + 1 ≤ key other) := by
    unfold stretch
    rw [filter_filter]
    apply filter_congr
    intro other _
    have low : first ≤ key item := (bounds (by simp)).1
    by_cases past : key item + 1 ≤ key other
    · have past' : first ≤ key other := by omega
      simp [past,past']
    · simp [past]
  rw [inner,split,filter_append]
  have none : (read ++ [item]).filter (fun other => decide (key item + 1 ≤ key other)) = [] := by
    rw [filter_eq_nil_iff]
    intro other mem
    simp only [decide_eq_true_eq]
    rcases mem_append.mp mem with early | last
    · have := (pairwise_append.mp before).2.2 other early item mem_cons_self
      omega
    · rw [mem_singleton.mp last]
      omega
  have all : rest.filter (fun other => decide (key item + 1 ≤ key other)) = rest := by
    rw [filter_eq_self]
    intro other mem
    have := between item (by simp) other mem
    simp only [decide_eq_true_eq]
    omega
  rw [none,all,nil_append]

end Oxidant.Lib
