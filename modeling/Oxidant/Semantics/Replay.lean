import Oxidant.Streaming.Scheduler

/-! What a replayable source promises and what a sink ought to hold of it: the records of
ranges that follow one another, each range under its own batch id. -/
namespace Oxidant.Semantics
open Streaming List

/-- A source whose reads depend on the range alone and whose plans start at its committed position;
`startsAt` and `advance` are its own notions. -/
structure Replayable {σ χ : Type} (source : Source σ χ) (build : σ → σ) where
  position : σ → SourceOffsets
  initial : SourceOffsets
  records : BatchRange → List RecordBatch
  startsAt : BatchRange → SourceOffsets → Prop
  advance : SourceOffsets → BatchRange → SourceOffsets
  committed : ∀ state, source.committedOffsets state = some (position state)
  built : ∀ state, position (build state) = initial
  restored : ∀ reached state,
    position (source.restoreOffsets (position reached) (build state)) = position reached
  plan_position : ∀ input state, position (source.planBatch input state).2 = position state
  plan_starts : ∀ input state range, (source.planBatch input state).1 = .ok range →
    range.isEmpty = false → startsAt range (position state)
  poll_records : ∀ input range state batches,
    (source.pollRange input range state).1 = .ok batches → batches = records range
  poll_position : ∀ input range state batches,
    (source.pollRange input range state).1 = .ok batches →
      position (source.pollRange input range state).2 = advance (position state) range
  /-- A failed read may have moved to the end of its range already. -/
  poll_failed : ∀ input range state e, (source.pollRange input range state).1 = .error e →
    position (source.pollRange input range state).2 = position state ∨
      position (source.pollRange input range state).2 = advance (position state) range
  advance_again : ∀ position range,
    advance (advance position range) range = advance position range
  durable_position : ∀ input state, position (source.markDurable input state).2 = position state

namespace Replayable
variable {source : Source σ χ} {build : σ → σ} (laws : Replayable source build)

def Tiles : SourceOffsets → List BatchRange → Prop
  | _,[] => True
  | «from»,range::rest => laws.startsAt range «from» ∧ Tiles (laws.advance «from» range) rest

def reach («from» : SourceOffsets) (ranges : List BatchRange) : SourceOffsets :=
  ranges.foldl laws.advance «from»

variable («from» : SourceOffsets)

@[simp] lemma reach_nil : laws.reach «from» [] = «from» := rfl

@[simp] lemma reach_snoc (ranges range) :
    laws.reach «from» (ranges ++ [range]) = laws.advance (laws.reach «from» ranges) range := by
  simp [reach]

lemma tiles_snoc {ranges} (range) :
    laws.Tiles «from» (ranges ++ [range]) ↔
    laws.Tiles «from» ranges ∧ laws.startsAt range (laws.reach «from» ranges) := by
  induction ranges generalizing «from» with
  | nil => simp [Tiles]
  | cons first rest ih => simp only [cons_append,Tiles,ih,reach,foldl_cons,and_assoc]

/-- What a sink may hold of ranges numbered from `first`: nothing of an empty one, else one batch
under its number, related by `content`. -/
inductive Holds (content : BatchRange → List RecordBatch → Prop) :
    Nat → List BatchRange → List (Nat × List RecordBatch) → Prop
  | nil (first : Nat) : Holds content first [] []
  | skip {first : Nat} {range : BatchRange} {ranges : List BatchRange}
      {held : List (Nat × List RecordBatch)} (empty : totalRows (laws.records range) = 0)
      (rest : Holds content (first + 1) ranges held) : Holds content first (range::ranges) held
  | take {first : Nat} {range : BatchRange} {ranges : List BatchRange}
      {batches : List RecordBatch} {held : List (Nat × List RecordBatch)}
      (present : totalRows (laws.records range) ≠ 0) (fits : content range batches)
      (rest : Holds content (first + 1) ranges held) :
      Holds content first (range::ranges) ((first,batches)::held)

variable {laws} {range : BatchRange} {ranges : List BatchRange}

section
variable (holds : laws.Holds content first ranges held)
include holds

lemma Holds.snoc_skip (empty : totalRows (laws.records range) = 0) :
    laws.Holds content first (ranges ++ [range]) held := by
  induction holds with
  | nil first => exact .skip empty (.nil _)
  | skip none _ ih => exact .skip none ih
  | take present fits _ ih => exact .take present fits ih

lemma Holds.snoc_take (present : totalRows (laws.records range) ≠ 0) (fits : content range batches) :
    laws.Holds content first (ranges ++ [range]) (held ++ [(first + ranges.length,batches)]) := by
  induction holds with
  | nil first => exact .take present fits (.nil _)
  | @skip first _ ranges _ none _ ih =>
    rw [show first + 1 + ranges.length = first + (ranges.length + 1) by omega] at ih
    exact .skip none ih
  | @take first _ ranges _ _ there fits _ ih =>
    rw [show first + 1 + ranges.length = first + (ranges.length + 1) by omega] at ih
    exact .take there fits ih

lemma Holds.ids (item) (mem : item ∈ held) : first ≤ item.1 ∧ item.1 < first + ranges.length := by
  induction holds with
  | nil first => cases mem
  | skip _ _ ih =>
    have := ih mem
    simp only [length_cons]
    omega
  | take _ _ _ ih =>
    simp only [length_cons]
    rcases mem_cons.mp mem with here | later
    · subst here
      omega
    · have := ih later
      omega

lemma Holds.covers (index) (there : ranges[index]? = some range) (present : totalRows (laws.records range) ≠ 0) :
    ∃ item ∈ held, item.1 = first + index := by
  induction holds generalizing index with
  | nil first => simp at there
  | skip none _ ih =>
    cases index with
    | zero =>
      simp only [getElem?_cons_zero,Option.some.injEq] at there
      subst there
      exact absurd none present
    | succ index =>
      obtain ⟨item,mem,same⟩ := ih index (by simpa using there)
      exact ⟨item,mem,by omega⟩
  | take _ _ _ ih =>
    cases index with
    | zero => exact ⟨_,mem_cons_self,rfl⟩
    | succ index =>
      obtain ⟨item,mem,same⟩ := ih index (by simpa using there)
      exact ⟨item,mem_cons_of_mem _ mem,by omega⟩

end

def entries (laws : Replayable source build) (plan : List RecordBatch → List RecordBatch) :
    Nat → List BatchRange → List (Nat × List RecordBatch)
  | _,[] => []
  | first,range::rest =>
    if totalRows (laws.records range) = 0 then entries laws plan (first + 1) rest
    else (first,plan (laws.records range))::entries laws plan (first + 1) rest

lemma Holds.eq_entries
    (holds : laws.Holds (fun range batches => batches = plan (laws.records range)) first ranges held) :
    held = laws.entries plan first ranges := by
  induction holds with
  | nil first => rfl
  | skip none _ ih => simpa only [entries,none,if_true] using ih
  | take present fits _ ih => simp only [entries,present,if_false,ih,fits]

lemma tiles_take (count) (tiles : laws.Tiles «from» ranges) : laws.Tiles «from» (ranges.take count) := by
  induction ranges generalizing «from» count with
  | nil => simpa using tiles
  | cons range rest ih =>
    cases count with
    | zero => exact trivial
    | succ count => exact ⟨tiles.1,ih _ _ tiles.2⟩

end Replayable
end Oxidant.Semantics
