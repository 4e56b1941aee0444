import Oxidant.Lib.Additive

/-! Joins of bags by a test of pairs of rows. -/
namespace Oxidant.Lib.Joins
open List
variable {α β γ : Type*} (test : α → β → Bool) (pair : α → β → γ) (lone : α → γ)

def inner (left : List α) (right : List β) : List γ :=
  left.flatMap fun row => (right.filter (test row)).map (pair row)

def kept (right : List β) (row : α) : List γ :=
  if right.any (test row) then (right.filter (test row)).map (pair row) else [lone row]

def outer (left : List α) (right : List β) : List γ := left.flatMap (kept test pair lone right)

def semi (left : List α) (right : List β) : List α := left.filter fun row => right.any (test row)

def anti (left : List α) (right : List β) : List α := left.filter fun row => !right.any (test row)

def full (loneRight : β → γ) (left : List α) (right : List β) : List γ :=
  outer test pair lone left right ++ (anti (fun row other => test other row) right left).map loneRight

lemma inner_additive_left (right : List β) : Additive fun left => inner test pair left right := Additive.flatMap _

lemma inner_additive_right (left : List α) : Additive fun right => inner test pair left right :=
  Additive.sum (fun row => (Additive.map (pair row)).comp (Additive.filter (test row))) left

lemma outer_additive (right : List β) : Additive fun left => outer test pair lone left right := Additive.flatMap _

lemma semi_additive (right : List β) : Additive fun left => semi test left right :=
  Additive.filter _

lemma anti_additive (right : List β) : Additive fun left => anti test left right :=
  Additive.filter _

end Oxidant.Lib.Joins
