import Oxidant.Lib.Traverse
import Oxidant.Cdc.Tiling
import Oxidant.JournalRefinement

/-! The journal of a query with a change-data-capture source: which ranges are recorded of the
snapshot and of the stream, where the commit entries and the source stand against them, and what of
them is in the sink. Each event makes its row alone, whatever batch it is built in. -/
namespace Oxidant.Cdc
open Lib Oxidant.Streaming Oxidant.Streaming.Journal JournalRefinement PostgresCdcSource List Option

namespace Setup
variable (setup : Setup)

def cells (values : List (Option String)) : Except Error (List (Option Scalar)) :=
  (setup.schema.take setup.emittedColumns).zipIdx.mapM fun (field,index) =>
    match (values[index]?).join with
    | none => .ok none
    | some text => setup.buildValue field text

def rowOf (event : ChangeEvent) : Except Error Row := do
  let cells ← setup.cells event.values
  return cells ++ [some (.text event.op.code),some (.int event.lsn),event.tsMicros.map .int]

def opCell (row : Row) : Option Scalar := row.cell setup.emittedColumns

def lsnCell (row : Row) : Option Scalar := row.cell (setup.emittedColumns + 1)

def values (row : Row) : List (Option Scalar) := row.take setup.emittedColumns

variable {setup}

lemma cells_length {values : List (Option String)} {cells : List (Option Scalar)}
    (made : setup.cells values = .ok cells) : cells.length = setup.emittedColumns := by
  have same := (mapM_eq_ok.mp made).length_eq
  rw [← same,length_zipIdx,length_take]
  unfold emittedColumns
  omega

lemma rowOf_eq_ok :
    setup.rowOf event = .ok row ↔
    ∃ cells, setup.cells event.values = .ok cells ∧
      row = cells ++ [some (.text event.op.code),some (.int event.lsn),event.tsMicros.map .int] := by
  unfold rowOf
  rw [bind_eq_ok]
  simp only [pure,Except.pure,Except.ok.injEq,eq_comm]

section Cells
variable (made : setup.rowOf event = .ok row)
include made

lemma rowOf_op : setup.opCell row = some (.text event.op.code) := by
  obtain ⟨cells,built,rfl⟩ := rowOf_eq_ok.mp made
  simp [opCell,Row.cell,← cells_length built]

lemma rowOf_lsn : setup.lsnCell row = some (.int event.lsn) := by
  obtain ⟨cells,built,rfl⟩ := rowOf_eq_ok.mp made
  simp [lsnCell,Row.cell,← cells_length built]

lemma rowOf_values : setup.cells event.values = .ok (setup.values row) := by
  obtain ⟨cells,built,rfl⟩ := rowOf_eq_ok.mp made
  simp [values,← cells_length built,built]

end Cells

lemma buildBatch_rows (built : setup.buildBatch events = .ok batch) : events.mapM setup.rowOf = .ok batch.rows := by
  obtain ⟨columns,made,same⟩ := bind_eq_ok.mp built
  cases same
  rw [mapM_eq_ok,forall₂_iff_get]
  refine ⟨by simp,fun place inside _ => ?_⟩
  refine rowOf_eq_ok.mpr ⟨_,mapM_columns made (getElem?_eq_getElem inside),?_⟩
  simp

lemma chunks_flatten (some : 0 < size) (items : List α)
    (enough : items.length ≤ room) : (chunks size room items).flatten = items := by
  induction room generalizing items with
  | zero => simp [chunks,eq_nil_of_length_eq_zero (Nat.le_zero.mp enough)]
  | succ room ih =>
    unfold chunks
    split
    · next empty => simp [isEmpty_iff.mp empty]
    · rw [flatten_cons,ih _ (by simp; omega),take_append_drop]

lemma buildBatches_made (built : setup.buildBatches events = .ok batches) :
    events.mapM setup.rowOf = .ok (batches.flatMap (·.rows)) := by
  have all (slices : List (List ChangeEvent)) (batches : List RecordBatch)
      (built : slices.mapM setup.buildBatch = .ok batches) :
      slices.flatten.mapM setup.rowOf = .ok (batches.flatMap (·.rows)) := by
    rw [mapM_eq_ok] at built ⊢
    induction built with
    | nil => exact .nil
    | cons first _ ih => exact rel_append (mapM_eq_ok.mp (buildBatch_rows first)) ih
  have rows := all _ _ built
  rwa [chunks_flatten (Nat.lt_of_lt_of_le Nat.zero_lt_one (Nat.le_max_right _ _)) events (Nat.le_refl _)] at rows

end Setup

structure Setup.Valid (setup : Setup) : Prop where
  tables : setup.tables ≠ []
  rows : 0 < setup.snapshotBatchRows
  addressable : setup.tables.length < 2^63

def restored (offsets : SourceOffsets) : PostgresCdcSource :=
  ({} : PostgresCdcSource).restoreOffsets offsets

def spanOf (range : BatchRange) : Option (Nat × Nat) :=
  range.start[lsnKey]?.map fun first => (Lsn.fromI64 first,Lsn.fromI64 (range.end[lsnKey]?.getD 0))

lemma restored_committed {self : PostgresCdcSource} (small : self.snapshotDone < 2^63)
    (low : self.position < 2^63) :
    restored self.committedOffsets = {snapshotDone := self.snapshotDone,position := self.position} := by
  have snapshot : self.committedOffsets.entries[snapshotKey]? = some (I64.ofNat self.snapshotDone) := by
    simp [committedOffsets,snapshotKey,lsnKey]
  have lsn : self.committedOffsets.entries[lsnKey]? = some (Lsn.asI64 self.position) := by
    have apart : ¬ compare snapshotKey lsnKey = .eq := by decide
    simp only [committedOffsets,Std.ExtTreeMap.insert_eq_insert,Std.ExtTreeMap.singleton_eq_insert]
    rw [Std.ExtTreeMap.getElem?_insert,if_neg apart,Std.ExtTreeMap.getElem?_insert_self]
  have number : (I64.ofNat self.snapshotDone).toNat = self.snapshotDone := by
    have same : I64.ofNat self.snapshotDone = self.snapshotDone := Lsn.asI64_eq small
    rw [same]
    rfl
  unfold restored restoreOffsets
  rw [if_neg (by simp [committedOffsets]),snapshot,lsn,getD_some,getD_some,number,Lsn.fromI64_asI64 (by omega)]

lemma spanOf_lsnRange (below : first < 2^63) (low : last < 2^63) :
    spanOf (lsnRange first last) = some (first,last) := by
  unfold spanOf
  rw [lsnRange_start,lsnRange_end,map_some,getD_some,Lsn.fromI64_asI64 (by omega),Lsn.fromI64_asI64 (by omega)]

lemma spanOf_snapshotRange : spanOf (snapshotRange index point) = none := by
  have gone : (snapshotRange index point).start[lsnKey]? = none := by
    simp [snapshotRange,snapshotKey,lsnKey,consistentPointKey]
  unfold spanOf
  rw [gone]
  rfl

section Reached
variable (publisher : Publisher) (setup : Setup)

/-- The first ranges have read every table as of the point, and then the stream up to the position.
-/
structure Reached (point : Nat) (ranges : List BatchRange) (count position : Nat) : Prop where
  passed : ∀ index < setup.tables.length, snapshotRange index point ∈ ranges.take count
  follows : Follow publisher setup point ((ranges.take count).filterMap spanOf) position

def Finished (positions : List (Option SourceOffsets)) : Nat → Prop
  | 0 => False
  | done+1 => ∃ offsets, positions[done]? = some (some offsets) ∧
      setup.tables.length ≤ (restored offsets).snapshotDone

def Shaped (point : Nat) (ranges : List BatchRange) (positions : List (Option SourceOffsets))
    (place : Nat) (range : BatchRange) : Prop :=
  ¬ Finished setup positions place ∧ (∃ index planned, range = snapshotRange index planned ∧
      index < setup.tables.length ∧ planned ≤ point ∧
      ∀ other < index, snapshotRange other planned ∈ ranges.take place) ∨
  Finished setup positions place ∧ ∃ first last, range = lsnRange first last ∧
    Recorded publisher setup first last ∧ Reached publisher setup point ranges place first

/-- What a poll of a range returns while the slot is consistent as of the point. -/
def Carries (point : Nat) (range : BatchRange) (batches : List RecordBatch) : Prop :=
  (∃ first last, range = lsnRange first last ∧ Recorded publisher setup first last ∧
    setup.buildBatches (publisher.eventsIn setup first last) = .ok batches) ∨
  ∃ index planned table, range = snapshotRange index planned ∧ planned ≤ point ∧
    setup.tables[index]? = some table ∧ Sliced setup point (publisher.tableAt point table) batches

end Reached

section Chronicle
variable (publisher : Publisher) (setup : Setup) {χ : Type} (env : Environment State χ) (config : QueryConfig)

def Landed (journal : Journal State) (place : Nat) : Prop :=
  (∃ rows, (place + 1,rows) ∈ journal.held) ∨ ∃ range point batches, journal.ranges[place]? = some range ∧
      point ≤ journal.source.server.point ∧ Carries publisher setup point range batches ∧
      totalRows batches = 0

def Slotted (self : PostgresCdcSource) : Prop :=
  self.opened = true ∨ setup.tables.length ≤ self.snapshotDone

structure Snapshotting (journal : Journal State) (done : Nat) (stage : Stage) : Prop where
  session : journal.source.server.session = none
  position : Slotted setup journal.source.self →
    journal.source.self.position = journal.source.server.point
  passed : Slotted setup journal.source.self → ∀ index < journal.source.self.snapshotDone,
    snapshotRange index journal.source.server.point ∈ journal.ranges
  pending : setup.tables.length ≤ journal.source.self.snapshotDone → ∃ index,
    journal.ranges[done]? = some (snapshotRange index journal.source.server.point) ∧
      setup.tables.length = index + 1
  committed : Finished setup journal.positions (done + 1) →
    setup.tables.length ≤ journal.source.self.snapshotDone
  opened : (∃ batches, stage = .polled batches) ∨ stage = .ready →
    journal.source.self.opened = true

/-- The range to be read next is one of the stream, and the source stands at its end. -/
def Ahead (journal : Journal State) (done : Nat) : Prop :=
  ∃ first last, journal.ranges[done]? = some (lsnRange first last) ∧ journal.source.self.position = last

/-- The source while it follows the stream. A range that was read, and then not committed, is read
again. -/
structure Following (journal : Journal State) (done : Nat) (stage : Stage) : Prop where
  complete : setup.tables.length ≤ journal.source.self.snapshotDone
  stands : match stage with
    | .idle | .ended => Ahead journal done ∨ Reached publisher setup journal.source.server.point
        journal.ranges done journal.source.self.position
    | .polled _ | .ready => Ahead journal done
    | .committed _ | .saved => Reached publisher setup journal.source.server.point journal.ranges
        done journal.source.self.position

def Staged (journal : Journal State) (done : Nat) : Stage → Prop
  | .polled batches => ∃ range, journal.ranges[done]? = some range ∧
      Carries publisher setup journal.source.server.point range batches
  | .ready => Landed publisher setup journal done
  | _ => True

structure Up (journal : Journal State) (done : Nat) (stage : Stage) : Prop where
  ranges : journal.ranges.length ≤ done + 1
  positions : journal.positions.length ≤ done + 1
  snapshotDone : journal.source.self.snapshotDone ≤ setup.tables.length
  position : journal.source.self.position ≤ lsnLimit
  staged : Staged publisher setup journal done stage
  snapshotting : ¬ Finished setup journal.positions done → Snapshotting setup journal done stage
  following : Finished setup journal.positions done → Following publisher setup journal done stage

def Standing (journal : Journal State) : Prop :=
  match journal.process with
  | .down => True
  | .starting _ => journal.source.self = {} ∧ journal.source.server.session = none
  | .up done stage => Up publisher setup journal done stage

structure Chronicle (journal : Journal State) : Prop where
  tracks : journal.source.Tracks publisher setup
  shown : journal.source.server.point ≤ journal.source.server.shown
  limit : journal.source.server.shown ≤ lsnLimit
  shaped : ∀ place range, journal.ranges[place]? = some range →
    Shaped publisher setup journal.source.server.point journal.ranges journal.positions place range
  marks : ∀ place position, journal.positions[place]? = some position → ∃ offsets,
    position = some offsets ∧ (restored offsets).snapshotDone ≤ setup.tables.length ∧
      (restored offsets).position ≤ lsnLimit ∧
      (setup.tables.length ≤ (restored offsets).snapshotDone →
        Reached publisher setup journal.source.server.point journal.ranges (place + 1)
          (restored offsets).position)
  settled : ∀ place later, Finished setup journal.positions place → place ≤ later →
    later ≤ journal.positions.length → Finished setup journal.positions later
  held : ∀ item ∈ journal.held, ∃ range point batches,
    journal.ranges[item.1 - 1]? = some range ∧ point ≤ journal.source.server.point ∧
      Carries publisher setup point range batches ∧ Prepares env config batches item.2
  landed : ∀ place < journal.positions.length, Landed publisher setup journal place
  standing : Standing publisher setup journal

end Chronicle

section Reaching
variable {ranges : List BatchRange} {count position : Nat}

lemma Reached.advance {next} (reached : Reached publisher setup point ranges count position)
    (lower : position ≤ next) (silent : publisher.eventsIn setup position next = []) :
    Reached publisher setup point ranges count next :=
  ⟨reached.passed,reached.follows.advance lower silent⟩

lemma Reached.append (reached : Reached publisher setup point ranges count position)
    (inside : count ≤ ranges.length) (more) :
    Reached publisher setup point (ranges ++ more) count position := by
  obtain ⟨passed,follows⟩ := reached
  rw [← take_append_of_le_length inside] at follows
  refine ⟨fun index small => ?_,follows⟩
  rw [take_append_of_le_length inside]
  exact passed index small

lemma Reached.snoc (reached : Reached publisher setup point ranges count first)
    (recorded : Recorded publisher setup first last)
    (there : ranges[count]? = some (lsnRange first last)) :
    Reached publisher setup point ranges (count + 1) last := by
  have small := recorded.small
  have lower := recorded.lt
  refine ⟨fun index less => ?_,?_⟩
  · rw [take_add_one]
    exact mem_append_left _ (reached.passed index less)
  · rw [take_add_one,there,filterMap_append,toList_some,filterMap_cons,spanOf_lsnRange (by omega) small]
    exact reached.follows.snoc recorded

lemma Reached.low (reached : Reached publisher setup point ranges count position) : point ≤ position :=
  reached.follows.le

end Reaching

section Entries
variable {positions : List (Option SourceOffsets)}

lemma finished_put (inside : done ≤ positions.length) (offsets) :
    Finished setup (put positions done (some offsets)) place ↔
    if place = done + 1 then setup.tables.length ≤ (restored offsets).snapshotDone
    else Finished setup positions place := by
  cases place with
  | zero => simp [Finished]
  | succ place =>
    unfold Finished
    simp only [put_getElem? inside,Nat.add_right_cancel_iff]
    split
    · simp
    · rfl

end Entries

section Rows
variable {setup : Setup}

lemma buildBatches_rows (built : setup.buildBatches events = .ok batches) : totalRows batches = events.length := by
  rw [(mapM_eq_ok.mp (Setup.buildBatches_made built)).length_eq,length_flatMap]
  rfl

lemma Sliced.made {rows} (sliced : Sliced setup point rows batches) :
    (snapshotEvents point rows).mapM setup.rowOf = .ok (batches.flatMap (·.rows)) := by
  rw [mapM_eq_ok]
  induction sliced with
  | nil => exact .nil
  | cons built _ ih =>
    unfold snapshotEvents at ih ⊢
    rw [map_append,flatMap_append]
    exact rel_append (mapM_eq_ok.mp (Setup.buildBatches_made built)) ih

lemma Sliced.rows {rows : List (List (Option String))}
    (sliced : Sliced setup point rows batches) : totalRows batches = rows.length := by
  have same := (mapM_eq_ok.mp sliced.made).length_eq
  rw [length_flatMap] at same
  unfold snapshotEvents at same
  rw [length_map] at same
  exact same.symm

end Rows
end Oxidant.Cdc
