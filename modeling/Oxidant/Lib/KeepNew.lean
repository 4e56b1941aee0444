import Mathlib.Tactic.Basic

/-! Keeping the first item of every key that was not seen before. -/
namespace Oxidant.Lib
open List

variable {ι κ : Type} [DecidableEq κ] (key : ι → κ)

def keepNew (seen : κ → Bool) : List ι → List ι
  | [] => []
  | item::items =>
    if seen (key item) then keepNew seen items
    else item::keepNew (fun other => seen other || decide (other = key item)) items

variable {key} {seen other : κ → Bool} {items : List ι}

lemma keepNew_congr (agree : ∀ item ∈ items, seen (key item) = other (key item)) :
    keepNew key seen items = keepNew key other items := by
  induction items generalizing seen other with
  | nil => rfl
  | cons item items ih =>
    have first := agree item mem_cons_self
    have rest := fun later mem => agree later (mem_cons_of_mem item mem)
    simp only [keepNew,first]
    split
    · exact ih rest
    · refine congrArg (item::·) (ih fun later mem => ?_)
      rw [rest later mem]

lemma mem_map_keepNew (found : κ) :
    found ∈ (keepNew key seen items).map key ↔ found ∈ items.map key ∧ seen found = false := by
  induction items generalizing seen with
  | nil => simp [keepNew]
  | cons item items ih =>
    unfold keepNew
    split
    · next old =>
      rw [ih]
      simp only [map_cons,mem_cons]
      constructor
      · exact fun both => ⟨.inr both.1,both.2⟩
      · rintro ⟨same | later,new⟩
        · rw [same,old] at new
          cases new
        · exact ⟨later,new⟩
    · next new =>
      simp only [map_cons,mem_cons,ih,Bool.or_eq_false_iff,decide_eq_false_iff_not]
      constructor
      · rintro (same | ⟨later,unseen,_⟩)
        · exact ⟨.inl same,same ▸ by simpa using new⟩
        · exact ⟨.inr later,unseen⟩
      · rintro ⟨same | later,unseen⟩
        · exact .inl same
        · by_cases same : found = key item
          · exact .inl same
          · exact .inr ⟨later,unseen,same⟩

end Oxidant.Lib
