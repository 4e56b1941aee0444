import Mathlib.Data.List.Perm.Basic

/-! Functions of bags that can be computed share by share: what they make of a bag is what they make
of its shares, put together. -/
namespace Oxidant.Lib
open List hiding filter
variable {α β γ ι : Type*}

def Additive (f : List α → List β) : Prop :=
  ∀ first second, (f (first ++ second)).Perm (f first ++ f second)

namespace Additive
variable {f : List α → List β} {g : List β → List γ}

lemma nil (additive : Additive f) : f [] = [] := by
  have lengths := (additive [] []).length_eq
  rw [append_nil,length_append] at lengths
  exact length_eq_zero_iff.mp (by omega)

lemma perm (additive : Additive f) {bag other : List α} (same : bag.Perm other) :
    (f bag).Perm (f other) := by
  induction same with
  | nil => rfl
  | cons item _ ih => exact ((additive [item] _).trans (ih.append_left _)).trans (additive [item] _).symm
  | swap item next rest =>
    have both : ∀ a b : α, (f (a::b::rest)).Perm (f [a] ++ f [b] ++ f rest) := by
      intro a b
      rw [append_assoc]
      exact (additive [a] (b::rest)).trans ((additive [b] rest).append_left _)
    calc f (next::item::rest)
      _ |>.Perm (f [next] ++ f [item] ++ f rest) := both next item
      _ |>.Perm (f [item] ++ f [next] ++ f rest) := perm_append_comm.append_right _
      _ |>.Perm (f (item::next::rest)) := (both item next).symm
  | trans _ _ first second => exact first.trans second

lemma comp (second : Additive g) (first : Additive f) : Additive fun bag => g (f bag) :=
  fun a b => (second.perm (first a b)).trans (second _ _)

lemma map (image : α → β) : Additive (List.map image) :=
  fun _ _ => List.Perm.of_eq map_append

lemma filter (keep : α → Bool) : Additive (List.filter keep) :=
  fun _ _ => List.Perm.of_eq (filter_append _ _)

lemma flatMap (image : α → List β) : Additive (List.flatMap image) :=
  fun _ _ => List.Perm.of_eq flatMap_append

lemma sum {family : ι → List α → List β} (each : ∀ index, Additive (family index))
    (indices : List ι) : Additive fun bag => indices.flatMap fun index => family index bag := by
  intro first second
  have split : (indices.flatMap fun index => family index (first ++ second)).Perm
      (indices.flatMap fun index => family index first ++ family index second) :=
    List.Perm.flatMap_left _ fun index _ => each index first second
  exact split.trans (flatMap_append_perm _ _ _).symm

lemma shares (additive : Additive f) {view : ι → List α} {sites : List ι} {whole : List α}
    (covers : (sites.flatMap view).Perm whole) :
    (sites.flatMap fun site => f (view site)).Perm (f whole) := by
  refine List.Perm.trans ?_ (additive.perm covers)
  clear covers
  induction sites with
  | nil => exact List.Perm.of_eq additive.nil.symm
  | cons site sites ih => exact (ih.append_left _).trans (additive _ _).symm

end Additive

lemma flatMap_swap (image : α → β → List γ) (outer : List α) (inner : List β) :
    (outer.flatMap fun item => inner.flatMap (image item)).Perm
      (inner.flatMap fun other => outer.flatMap fun item => image item other) := by
  induction outer with
  | nil => simp
  | cons item outer ih => exact (ih.append_left _).trans (flatMap_append_perm _ _ _)

end Oxidant.Lib
