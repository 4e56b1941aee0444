import Oxidant.Semantics.Replay
import Oxidant.Streaming.Journal

/-! What a batch may prune, and the journals of a query over a replayable source: the ranges tile the
source, and every position a journal names is the end of a range. -/
namespace Oxidant.BatchProtocol
open Streaming CheckpointStore

def initially (source : σ) : Sys σ := ⟨{source},none⟩

def PruneSafe (rt : QueryRuntime) (world : World σ) : Prop :=
  rt.batchId ≤ world.disk.committed ∨ (world.disk.offsets.getD {}).prunedThrough + pruneBatch ≤ world.disk.committed

instance (rt : QueryRuntime) (world : World σ) : Decidable (PruneSafe rt world) :=
  inferInstanceAs (Decidable (_ ∨ _))

end Oxidant.BatchProtocol

namespace Oxidant.LogPruning
open Streaming BatchProtocol

/-- A batch is run only where what its pruning may delete is covered by the resume record. -/
def PrunesBelow {σ χ : Type} : Sys σ → Action χ → Prop
  | ⟨world,some rt⟩,.batch _ => PruneSafe rt world
  | _,_ => True

instance {σ χ : Type} : (sys : Sys σ) → (action : Action χ) → Decidable (PrunesBelow sys action)
  | ⟨world,some rt⟩,.batch _ => inferInstanceAs (Decidable (PruneSafe rt world))
  | ⟨_,none⟩,_ | ⟨_,some _⟩,.start _ _ | ⟨_,some _⟩,.stop | ⟨_,some _⟩,.crash => .isTrue trivial

end Oxidant.LogPruning

namespace Oxidant.BatchProtocol
open Lib Streaming Semantics Journal

variable {env : Environment σ χ} (laws : Replayable env.source env.build)

def reached (ranges : List BatchRange) (count : Nat) : SourceOffsets :=
  laws.reach laws.initial (ranges.take count)

def ResumesAt (ranges : List BatchRange) (count : Nat) (offsets : Option SourceOffsets) : Prop :=
  offsets = some (reached laws ranges count) ∧ ∃ state, laws.position state = reached laws ranges count

/-- Between calls the source stands at the end of the last batch committed, or of the next if that
was read. -/
def Standing (journal : Journal σ) : Process → Prop
  | .down => True
  | .starting _ => ∃ state, journal.source = env.build state
  | .up done (.polled batches) => laws.position journal.source = reached laws journal.ranges (done + 1) ∧
    ∃ range, journal.ranges[done]? = some range ∧ batches = laws.records range
  | .up done .ready => laws.position journal.source = reached laws journal.ranges (done + 1)
  | .up done _ => laws.position journal.source = reached laws journal.ranges done ∨
    laws.position journal.source = reached laws journal.ranges (done + 1)

structure Lawful (journal : Journal σ) : Prop where
  tiles : laws.Tiles laws.initial journal.ranges
  positions : ∀ place offsets, journal.positions[place]? = some offsets →
    ResumesAt laws journal.ranges (place + 1) offsets
  standing : Standing laws journal journal.process

variable {laws} {ranges : List BatchRange}

lemma reached_snoc (inside : count ≤ ranges.length) :
    reached laws (ranges ++ [range]) count = reached laws ranges count := by
  simp only [reached,List.take_append_of_le_length inside]

lemma reached_succ (there : ranges[count]? = some range) :
    reached laws ranges (count + 1) = laws.advance (reached laws ranges count) range := by
  simp only [reached,List.take_add_one,there,Option.toList_some,laws.reach_snoc]

lemma reached_all (covers : ranges.length ≤ count) :
    reached laws ranges count = laws.reach laws.initial ranges := by
  simp only [reached,List.take_of_length_le covers]

lemma Standing.between (standing : Standing laws journal (.up done stage)) :
    laws.position journal.source = reached laws journal.ranges done ∨
      laws.position journal.source = reached laws journal.ranges (done + 1) := by
  cases stage with
  | polled => exact .inr standing.1
  | ready => exact .inr standing
  | _ => exact standing

section
variable (lawful : Lawful laws journal)
include lawful

lemma Lawful.up (up : journal.process = .up done stage) : Standing laws journal (.up done stage) :=
  up ▸ lawful.standing

lemma Lawful.reads (up : journal.process = .up done .idle) (there : journal.ranges[done]? = some range) :
    laws.advance (laws.position journal.source) range = reached laws journal.ranges (done + 1) := by
  rcases lawful.up up with before | read
  · rw [before,reached_succ there]
  · rw [read,reached_succ there,laws.advance_again]

lemma Lawful.restored (sound : Sound journal) (starting : journal.process = .starting walked) :
    laws.position (journal.resume.elim journal.source (env.source.restoreOffsets · journal.source)) =
      reached laws journal.ranges journal.recorded := by
  obtain ⟨state,built⟩ : Standing laws journal (.starting walked) := starting ▸ lawful.standing
  rw [built]
  rcases sound.resume with ⟨first,none⟩ | ⟨later,there⟩
  · rw [none,first]
    exact laws.built state
  · obtain ⟨stored,before,stood⟩ := lawful.positions _ _ there
    rw [Nat.sub_add_cancel later] at stored stood
    rw [stored,← stood]
    exact laws.restored before state

lemma Lawful.records (sound : Sound journal) (up : journal.process = .up done .idle)
    (last : journal.ranges.length ≤ done) (input)
    (answer : (env.source.planBatch input journal.source).1 = .ok range) (some : range.isEmpty = false) :
    Lawful laws {journal with
      source := (env.source.planBatch input journal.source).2
      ranges := journal.ranges ++ [range]} := by
  have high := (sound.up _ _ up).2.1
  have planned := sound.planned
  have stands : laws.position journal.source = laws.reach laws.initial journal.ranges := by
    rcases lawful.up up with here | here
    · rw [here,reached_all last]
    · rw [here,reached_all (by omega)]
  refine ⟨(laws.tiles_snoc _ _).mpr ⟨lawful.tiles,stands ▸ laws.plan_starts _ _ _ answer some⟩,
    fun place offsets there => ?_,?_⟩
  · have inside : place < journal.positions.length := (List.getElem?_eq_some_iff.mp there).1
    have resumes := lawful.positions place offsets there
    unfold ResumesAt at resumes ⊢
    rwa [reached_snoc (by omega)]
  · rw [up]
    refine .inl ?_
    rw [laws.plan_position,stands,reached_snoc (by omega),reached_all last]

lemma Lawful.commits (sound : Sound journal) (up : journal.process = .up done .ready) (acknowledged : Bool) :
    Lawful laws {journal with
      positions := put journal.positions done (env.source.committedOffsets journal.source)
      process := if acknowledged then .up (done + 1) (.committed (env.source.committedOffsets journal.source))
        else .up done .ended} := by
  have stands := lawful.up up
  refine ⟨lawful.tiles,fun place offsets there => ?_,?_⟩
  · rw [put_getElem? (sound.up _ _ up).2.1] at there
    split at there
    · next same =>
      cases there
      rw [same,laws.committed,stands]
      exact ⟨rfl,_,stands⟩
    · exact lawful.positions place offsets there
  · cases acknowledged with
    | true => exact .inl stands
    | false => exact .inr stands

lemma Lawful.step (step : Step env config journal phase after) (sound : Sound journal) : Lawful laws after := by
  cases step with
  | crash => exact {lawful with standing := trivial}
  | build => exact {lawful with standing := ⟨_,rfl⟩}
  | recover starting =>
    exact {lawful with standing := (starting ▸ lawful.standing : Standing laws journal (.starting _))}
  | start starting => exact {lawful with standing := .inl (lawful.restored sound starting)}
  | abandon up => exact {lawful with standing := (lawful.up up).between}
  | plan up last input =>
    refine {lawful with standing := ?_}
    have stands := lawful.up up
    rw [up]
    unfold Standing
    rwa [laws.plan_position]
  | record up last input answer some => exact lawful.records sound up last input answer some
  | miss up there input answer =>
    refine {lawful with standing := ?_}
    rw [up]
    rcases laws.poll_failed _ _ _ _ answer with stays | advances
    · exact (lawful.up up).imp stays.trans stays.trans
    · exact .inr (advances.trans (lawful.reads up there))
  | poll up there input answer =>
    exact {lawful with standing := ⟨(laws.poll_position _ _ _ _ answer).trans (lawful.reads up there),
      _,there,laws.poll_records _ _ _ _ answer⟩}
  | skip up => exact {lawful with standing := (lawful.up up).1}
  | write up _ _ acknowledged =>
    cases acknowledged with
    | true => exact {lawful with standing := (lawful.up up).1}
    | false => exact {lawful with standing := lawful.up up}
  | commit up acknowledged => exact lawful.commits sound up acknowledged
  | save up acknowledged => cases acknowledged <;> exact {lawful with standing := lawful.up up}
  | durable up input =>
    refine {lawful with standing := ?_}
    have stands : _ ∨ _ := lawful.up up
    rwa [← laws.durable_position input] at stands

lemma Lawful.rest : Lawful laws journal.rest := by
  refine {lawful with standing := ?_}
  have standing := lawful.standing
  unfold Journal.rest
  cases process : journal.process with
  | up done stage => exact (lawful.up process).between
  | _ =>
    rw [process] at standing
    exact standing

end

lemma lawful_initially (source) : Lawful laws {source} :=
  ⟨trivial,fun _ _ none => by simp at none,trivial⟩

end Oxidant.BatchProtocol
