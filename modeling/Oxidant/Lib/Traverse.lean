import Mathlib.Data.List.Forall2

/-! Traversals that can fail: what one that succeeds made of each item, and tables made column by
column read row by row. -/
namespace Oxidant.Lib
open List hiding after

variable {ε α β γ : Type} {items : List α} {made : List β} {make : α → Except ε β}

lemma mapM_eq_ok :
    items.mapM make = .ok made ↔ List.Forall₂ (fun item value => make item = .ok value) items made := by
  induction items generalizing made with
  | nil =>
    constructor
    · intro same
      cases same
      exact .nil
    · intro none
      cases none
      rfl
  | cons item rest ih =>
    constructor
    · intro same
      cases first : make item with
      | error e => simp [first,bind,Except.bind] at same
      | ok value =>
        cases others : rest.mapM make with
        | error e => simp [first,others,bind,Except.bind] at same
        | ok values =>
          simp [first,others,bind,Except.bind,pure,Except.pure] at same
          subst same
          exact .cons first (ih.mp others)
    · rintro (_ | ⟨first,others⟩)
      simp [first,ih.mpr others,bind,Except.bind,pure,Except.pure]

lemma mem_of_mapM_eq_ok (done : items.mapM make = .ok made) (mem : found ∈ made) :
    ∃ item ∈ items, make item = .ok found := by
  rw [mapM_eq_ok] at done
  induction done with
  | nil => cases mem
  | cons first _ ih =>
    rcases mem_cons.mp mem with rfl | among
    · exact ⟨_,mem_cons_self,first⟩
    · obtain ⟨item,there,makes⟩ := ih among
      exact ⟨item,mem_cons_of_mem _ there,makes⟩

lemma exists_mapM_eq_ok (each : ∀ item ∈ items, ∃ value, make item = .ok value) :
    ∃ made, items.mapM make = .ok made := by
  induction items with
  | nil => exact ⟨[],rfl⟩
  | cons item rest ih =>
    obtain ⟨value,first⟩ := each item mem_cons_self
    obtain ⟨made,others⟩ := ih fun other mem => each other (mem_cons_of_mem _ mem)
    exact ⟨value::made,by simp [first,others,bind,Except.bind,pure,Except.pure]⟩

lemma pairwise_of_mapM_eq_ok (done : items.mapM make = .ok made) {after : β → β → Prop}
    (ordered : items.Pairwise before)
    (kept : ∀ item value other result, make item = .ok value → make other = .ok result → before item other →
        after value result) :
    made.Pairwise after := by
  have makes := mapM_eq_ok.mp done
  clear done
  induction makes with
  | nil => exact .nil
  | cons first rest ih =>
    obtain ⟨head,tail⟩ := pairwise_cons.mp ordered
    refine pairwise_cons.mpr ⟨fun value mem => ?_,ih tail⟩
    obtain ⟨item,there,same⟩ := mem_of_mapM_eq_ok (mapM_eq_ok.mpr rest) mem
    exact kept _ _ _ _ first same (head item there)

lemma mapM_columns {cell : α → β → Except ε (Option γ)} {fields : List α} {items : List β}
    (made : fields.mapM (fun field => items.mapM (cell field)) = .ok columns) {row : Nat}
    (there : items[row]? = some item) :
    fields.mapM (fun field => cell field item) = .ok (columns.map fun column => (column[row]?).join) := by
  rw [mapM_eq_ok] at made ⊢
  induction made with
  | nil => exact .nil
  | cons column _ ih =>
    refine .cons ?_ ih
    have each := forall₂_iff_get.mp (mapM_eq_ok.mp column)
    obtain ⟨inside,same⟩ := List.getElem?_eq_some_iff.mp there
    have found := each.2 row inside (each.1 ▸ inside)
    simp only [get_eq_getElem,same] at found
    dsimp only
    rw [found,getElem?_eq_getElem (each.1 ▸ inside),Option.join_some]

/-- What every step of a fold keeps as it adds its item to those seen holds of all of them at the end. -/
lemma foldlM_visits {visit : σ → α → Except ε σ} (kept : List α → σ → Prop) (seen : List α)
    (steps : ∀ seen, ∀ item ∈ items, ∀ state next, kept seen state → visit state item = .ok next →
      kept (item::seen) next)
    (start : kept seen state) (done : items.foldlM visit state = .ok last) :
    kept (items.reverse ++ seen) last := by
  induction items generalizing seen state with
  | nil =>
    cases done
    exact start
  | cons item rest ih =>
    rw [foldlM_cons] at done
    cases first : visit state item with
    | error e => simp [first,bind,Except.bind] at done
    | ok next =>
      simp only [first,bind,Except.bind] at done
      rw [reverse_cons,append_assoc,singleton_append]
      exact ih (item::seen) (fun seen other mem => steps seen other (mem_cons_of_mem _ mem))
        (steps seen item mem_cons_self state next start first) done

lemma foldlM_eq_some {next} (steps : ∀ item ∈ items, ∀ state, step state item = some (next state item)) (state : β) :
    items.foldlM step state = some (items.foldl next state) := by
  induction items generalizing state with
  | nil => rfl
  | cons item items ih =>
    rw [foldlM_cons,steps item mem_cons_self state,foldl_cons]
    exact ih (fun other mem => steps other (mem_cons_of_mem _ mem)) _

end Oxidant.Lib
