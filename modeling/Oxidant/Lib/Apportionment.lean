import Mathlib.Algebra.BigOperators.Group.List.Basic
import Mathlib.Data.List.Nodup
import Mathlib.Data.List.Perm.Subperm
import Mathlib.Data.Nat.ModEq

/-! Parts of a whole: places of a circle counted from a starting place, windows of them, and parts in
proportion to weights. -/
namespace Oxidant.Lib
open List hiding count

def rotated (count start place : Nat) : Nat := (place + count - start) % count

variable {count : Nat} {place start other : Nat}

lemma rotated_eq (inside : place < count) (starts : start < count) :
    rotated count start place = if start ≤ place then place - start else place + count - start := by
  unfold rotated
  split
  · next behind =>
    rw [show place + count - start = place - start + count by omega,Nat.add_mod_right]
    exact Nat.mod_eq_of_lt (by omega)
  · exact Nat.mod_eq_of_lt (by omega)

lemma rotated_lt (inside : place < count) : rotated count start place < count :=
  Nat.mod_lt _ (by omega)

lemma rotated_place_inj (inside : place < count) (inside' : other < count) (starts : start < count)
    (same : rotated count start place = rotated count start other) : place = other := by
  rw [rotated_eq inside starts,rotated_eq inside' starts] at same
  split at same <;> split at same <;> omega

lemma rotated_start_inj (inside : place < count) (starts : start < count) (starts' : other < count)
    (same : rotated count start place = rotated count other place) : start = other := by
  rw [rotated_eq inside starts,rotated_eq inside starts'] at same
  split at same <;> split at same <;> omega

lemma mod_add_inj (inside : later < count) (inside' : other < count)
    (same : (first + later) % count = (first + other) % count) : later = other := by
  have alike : later ≡ other [MOD count] := Nat.ModEq.add_left_cancel' first same
  exact Nat.ModEq.eq_of_lt_of_lt alike inside inside'

lemma sum_below : ((List.range count).map fun place => if place < size then 1 else 0).sum = min count size := by
  induction count with
  | zero => simp
  | succ count ih =>
    rw [range_succ,map_append,sum_append,ih]
    simp only [map_cons,map_nil,sum_cons,sum_nil]
    split <;> omega

lemma sum_window {place : Nat → Nat} (fits : size ≤ count) (inside : ∀ i < count, place i < count)
    (apart : ∀ i < count, ∀ j < count, place i = place j → i = j) :
    ((List.range count).map fun i => if place i < size then 1 else 0).sum = size := by
  have moved : ((List.range count).map place).Perm (List.range count) := by
    have nodup : ((List.range count).map place).Nodup := by
      apply List.Nodup.map_on _ nodup_range
      intro i mem j mem'
      exact apart i (mem_range.mp mem) j (mem_range.mp mem')
    apply (subperm_of_subset nodup _).perm_of_length_le
    · simp
    · intro found mem
      obtain ⟨i,among,rfl⟩ := mem_map.mp mem
      exact mem_range.mpr (inside i (mem_range.mp among))
  have sums := (moved.map fun place => if place < size then 1 else 0).sum_eq
  rw [map_map,sum_below,Nat.min_eq_right fits] at sums
  exact sums

lemma sum_proportional_le (whole : Nat) (items : List ι) (some : 0 < (items.map weight).sum) :
    (items.map fun item => whole * weight item / (items.map weight).sum).sum ≤ whole := by
  generalize total : (items.map weight).sum = sum at some
  have scaled : sum * (items.map fun item => whole * weight item / sum).sum ≤ whole * (items.map weight).sum := by
    clear total
    induction items with
    | nil => simp
    | cons item items ih =>
      have part := Nat.mul_div_le (whole * weight item) sum
      simp only [map_cons,sum_cons,Nat.mul_add]
      omega
  rw [total,mul_comm whole] at scaled
  exact Nat.le_of_mul_le_mul_left scaled some

end Oxidant.Lib
