import Mathlib.Algebra.BigOperators.Group.List.Basic
import Mathlib.Algebra.Ring.Nat

/-! Arithmetic of unsigned numbers of a width, in which an overflow ends the computation. -/
namespace Oxidant.Lib.Unsigned

def fits (width value : Nat) : Option Nat := if value < 2^width then some value else none

def add (width first second : Nat) : Option Nat := fits width (first + second)

def mul (width first second : Nat) : Option Nat := fits width (first * second)

def sub (first second : Nat) : Option Nat := if second ≤ first then some (first - second) else none

def sum (width : Nat) (values : List Nat) : Option Nat := values.foldlM (add width) 0

variable {width first second : Nat}

lemma fits_eq {value : Nat} (small : value < 2^width) : fits width value = some value :=
  if_pos small

lemma add_eq (small : first + second < 2^width) : add width first second = some (first + second) :=
  fits_eq small

lemma mul_eq (small : first * second < 2^width) : mul width first second = some (first * second) :=
  fits_eq small

lemma sub_eq (ordered : second ≤ first) : sub first second = some (first - second) :=
  if_pos ordered

lemma sum_eq {values : List Nat} (small : values.sum < 2^width) : sum width values = some values.sum := by
  have fold (start : Nat) (small : start + values.sum < 2^width) :
      values.foldlM (add width) start = some (start + values.sum) := by
    induction values generalizing start with
    | nil => rfl
    | cons value values ih =>
      rw [List.sum_cons] at small ⊢
      rw [List.foldlM_cons,add_eq (by omega)]
      exact (ih (by omega) _ (by omega)).trans (by rw [add_assoc])
  exact (fold 0 (by omega)).trans (by rw [zero_add])

end Oxidant.Lib.Unsigned
