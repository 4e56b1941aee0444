import Mathlib.Data.List.Basic

/-! Lists put one after the other with a mark between them. The mark is written only once something
stands before it, so that empty lists at the front leave no trace. -/
namespace Oxidant.Lib
open List hiding after
variable {α : Type} {mark : α}

def joined (mark : α) (items : List (List α)) : List α :=
  items.foldl (fun text item => (if text.isEmpty then text else text ++ [mark]) ++ item) []

def marked (mark : α) (items : List (List α)) : List α := items.flatMap (mark::·)

lemma foldl_joined (some : text ≠ []) :
    items.foldl (fun text item => (if text.isEmpty then text else text ++ [mark]) ++ item) text =
      text ++ marked mark items := by
  induction items generalizing text with
  | nil => simp [marked]
  | cons item items ih =>
    rw [foldl_cons,ih (by simp [some])]
    simp [marked,some]

@[simp]
lemma joined_empty : joined mark ([]::items) = joined mark items := rfl

lemma joined_cons (some : item ≠ []) : joined mark (item::items) = item ++ marked mark items := by
  exact foldl_joined (by simpa using some)

lemma joined_append (same : joined mark items = joined mark others) (rest) :
    joined mark (items ++ rest) = joined mark (others ++ rest) := by
  unfold joined at same ⊢
  rw [foldl_append,foldl_append,same]

def Unmarked (mark : α) (items : List (List α)) : Prop := ∀ item ∈ items,mark ∉ item

section Counting
variable [DecidableEq α] {items others : List (List α)}

lemma count_marked (unmarked : Unmarked mark items) : (marked mark items).count mark = items.length := by
  induction items with
  | nil => rfl
  | cons item items ih =>
    have rest := ih fun other mem => unmarked other (mem_cons_of_mem _ mem)
    unfold marked at rest ⊢
    rw [flatMap_cons,count_append,rest,count_cons_self,
      count_eq_zero_of_not_mem (unmarked item mem_cons_self),length_cons]
    omega

lemma count_joined (unmarked : Unmarked mark items) : (joined mark items).count mark ≤ items.length - 1 := by
  induction items with
  | nil => simp [joined]
  | cons item items ih =>
    have tail : Unmarked mark items :=
      fun other mem => unmarked other (mem_cons_of_mem _ mem)
    by_cases empty : item = []
    · subst empty
      rw [joined_empty,length_cons]
      exact Nat.le_trans (ih tail) (by omega)
    · rw [joined_cons empty,count_append,count_marked tail,
        count_eq_zero_of_not_mem (unmarked item mem_cons_self),length_cons]
      omega

lemma takeWhile_marked (unmarked : mark ∉ item) : (item ++ marked mark items).takeWhile (· ≠ mark) = item := by
  rw [takeWhile_append_of_pos]
  · cases items with
    | nil => simp [marked]
    | cons next items => simp [marked]
  · intro letter mem
    simp only [decide_eq_true_eq]
    intro same
    exact unmarked (same ▸ mem)

/-- Of two items only a later one may hold a mark, or the first at its very front. -/
lemma joined_pair_inj (tail : mark ∉ first.tail) (last : mark ∉ second.tail) (tail' : mark ∉ first'.tail)
    (last' : mark ∉ second'.tail) (same : joined mark [first,second] = joined mark [first',second']) :
    first = first' ∧ second = second' := by
  cases first with
  | nil =>
    cases first' with
    | nil => exact ⟨rfl,same⟩
    | cons letter rest =>
      have whole : second = letter::rest ++ mark::second' := by simpa [joined] using same
      simp [whole] at last
  | cons letter rest =>
    cases first' with
    | nil =>
      have whole : letter::rest ++ mark::second = second' := by simpa [joined] using same
      simp [← whole] at last'
    | cons letter' rest' =>
      rw [joined_cons (cons_ne_nil _ _),joined_cons (cons_ne_nil _ _),cons_append,cons_append,List.cons.injEq] at same
      obtain ⟨rfl,same⟩ := same
      have heads := congrArg (List.takeWhile (· ≠ mark)) same
      rw [tail_cons] at tail tail'
      rw [takeWhile_marked tail,takeWhile_marked tail'] at heads
      subst heads
      exact ⟨rfl,by simpa [marked] using same⟩

lemma append_marked_inj (unmarked : Unmarked mark (item::items)) (unmarked' : Unmarked mark (other::others))
    (same : item ++ marked mark items = other ++ marked mark others) : item = other ∧ items = others := by
  induction items generalizing item other others with
  | nil =>
    have first := congrArg (List.takeWhile (· ≠ mark)) same
    rw [takeWhile_marked (unmarked item mem_cons_self),takeWhile_marked (unmarked' other mem_cons_self)] at first
    subst first
    cases others with
    | nil => exact ⟨rfl,rfl⟩
    | cons next others => simp [marked] at same
  | cons next items ih =>
    have first := congrArg (List.takeWhile (· ≠ mark)) same
    rw [takeWhile_marked (unmarked item mem_cons_self),takeWhile_marked (unmarked' other mem_cons_self)] at first
    subst first
    cases others with
    | nil => simp [marked] at same
    | cons later others =>
      have tails := append_cancel_left same
      simp only [marked,flatMap_cons,cons_append,List.cons.injEq,true_and] at tails
      obtain ⟨heads,rests⟩ := ih (fun other mem => unmarked other (mem_cons_of_mem _ mem))
        (fun other mem => unmarked' other (mem_cons_of_mem _ mem)) tails
      rw [heads,rests]
      exact ⟨rfl,rfl⟩

lemma joined_ne (unmarked : Unmarked mark items) (unmarked' : Unmarked mark (other::others)) (some : other ≠ [])
    (lengths : items.length = others.length) : joined mark items ≠ other ++ marked mark others := by
  intro same
  have counts := count_joined unmarked
  rw [same,count_append,count_marked (fun one mem => unmarked' one (mem_cons_of_mem _ mem))] at counts
  cases items with
  | nil =>
    cases other with
    | nil => exact some rfl
    | cons => cases same
  | cons =>
    simp only [length_cons] at lengths counts
    omega

lemma joined_inj (unmarked : Unmarked mark items) (unmarked' : Unmarked mark others)
    (lengths : items.length = others.length) (same : joined mark items = joined mark others) : items = others := by
  induction items generalizing others with
  | nil => exact (eq_nil_of_length_eq_zero lengths.symm).symm
  | cons item items ih =>
    cases others with
    | nil => cases lengths
    | cons other others =>
      have tail : Unmarked mark items :=
        fun one mem => unmarked one (mem_cons_of_mem _ mem)
      have tail' : Unmarked mark others :=
        fun one mem => unmarked' one (mem_cons_of_mem _ mem)
      have rests : items.length = others.length := Nat.succ.inj lengths
      by_cases empty : item = []
      · subst empty
        by_cases empty' : other = []
        · subst empty'
          rw [ih tail tail' rests same]
        · rw [joined_empty,joined_cons empty'] at same
          exact absurd same (joined_ne tail unmarked' empty' rests)
      · by_cases empty' : other = []
        · subst empty'
          rw [joined_empty,joined_cons empty] at same
          exact absurd same.symm (joined_ne tail' unmarked empty rests.symm)
        · rw [joined_cons empty,joined_cons empty'] at same
          obtain ⟨heads,tails⟩ := append_marked_inj unmarked unmarked' same
          rw [heads,tails]

end Counting
end Oxidant.Lib
