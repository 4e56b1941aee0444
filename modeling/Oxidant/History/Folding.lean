import Mathlib.Data.Prod.Lex
import Oxidant.Lib.Keyed

/-! The records of the statement journal and the fold that turns them back into statements: a newer
record changes what it carries, an older one only fills what is still absent, and a tombstone removes
its statement for good, whatever is read of other statements in between. -/
namespace Oxidant.History
open Lib.Keyed

inductive StatementStatus where
  | pending
  | running
  | succeeded
  | failed
  | canceled
  deriving DecidableEq, Repr

def StatementStatus.isTerminal : StatementStatus → Bool
  | succeeded | failed | canceled => true
  | pending | running => false

inductive Source where
  | rest
  | connect
  deriving DecidableEq, Repr

def Source.asStr : Source → String
  | rest => "rest"
  | connect => "connect"

def Source.parse (raw : String) : Source := if raw = "connect" then connect else rest

inductive RecordKind where
  | submitted
  | running
  | snapshot
  | tombstone
  deriving DecidableEq, Repr

def RecordKind.rank : RecordKind → Nat
  | submitted => 0
  | running => 1
  | snapshot => 2
  | tombstone => 3

structure ResultPointer where
  file : String
  bytes : Nat
  deriving DecidableEq, Repr

structure JournalRecord where
  kind : RecordKind
  seq : Nat
  lastSeq : Option Nat := none
  id : String
  clientOpId : Option String := none
  session : Option String := none
  source : Option String := none
  sql : Option String := none
  sqlEncoding : Option String := none
  status : Option StatementStatus := none
  error : Option String := none
  schema : Option (List (String × String)) := none
  rows : Option Nat := none
  submittedAtMs : Int
  durationMs : Option Int := none
  result : Option ResultPointer := none
  resultRefused : Option String := none
  deriving DecidableEq, Repr

namespace JournalRecord

def writeSeq (rec : JournalRecord) : Nat := rec.lastSeq.getD rec.seq

def foldKey (rec : JournalRecord) : Nat ×ₗ Nat := toLex (rec.writeSeq,rec.kind.rank)

end JournalRecord

structure FoldedStatement where
  id : String
  clientOpId : Option String
  session : Option String
  source : Source
  sql : String
  sqlEncoding : String
  status : StatementStatus
  error : Option String
  schema : Option (List (String × String))
  rows : Option Nat
  submittedAtMs : Int
  durationMs : Option Int
  result : Option ResultPointer
  resultRefused : Option String
  seq : Nat
  lastSeq : Nat
  rank : Nat
  deriving DecidableEq, Repr

namespace FoldedStatement

def foldKey (st : FoldedStatement) : Nat ×ₗ Nat := toLex (st.lastSeq,st.rank)

def ofRecord (rec : JournalRecord) : FoldedStatement where
  id := rec.id
  clientOpId := rec.clientOpId
  session := rec.session
  source := (rec.source.map Source.parse).getD .rest
  sql := rec.sql.getD ""
  sqlEncoding := rec.sqlEncoding.getD "text"
  status := rec.status.getD .pending
  error := rec.error
  schema := rec.schema
  rows := rec.rows
  submittedAtMs := rec.submittedAtMs
  durationMs := rec.durationMs
  result := rec.result
  resultRefused := rec.resultRefused
  seq := rec.seq
  lastSeq := rec.writeSeq
  rank := rec.kind.rank

/-- Fill from an older record what is absent. The text and its encoding go together; a snapshot's
result is final. -/
def backfill (st : FoldedStatement) (rec : JournalRecord) : FoldedStatement :=
  let fills := st.sql.isEmpty && rec.sql.isSome
  {st with
    sql := if fills then rec.sql.getD "" else st.sql
    sqlEncoding := if fills then rec.sqlEncoding.getD st.sqlEncoding else st.sqlEncoding
    session := st.session.or rec.session
    clientOpId := st.clientOpId.or rec.clientOpId
    error := st.error.or rec.error
    schema := st.schema.or rec.schema
    rows := st.rows.or rec.rows
    durationMs := st.durationMs.or rec.durationMs
    result := if st.rank < RecordKind.snapshot.rank then st.result.or rec.result else st.result
    resultRefused :=
      if st.rank < RecordKind.snapshot.rank then st.resultRefused.or rec.resultRefused
      else st.resultRefused}

def advance (st : FoldedStatement) (rec : JournalRecord) : FoldedStatement :=
  {st with
    lastSeq := rec.writeSeq
    rank := rec.kind.rank
    status := rec.status.getD st.status
    sql := rec.sql.getD st.sql
    sqlEncoding := rec.sqlEncoding.getD st.sqlEncoding
    source := (rec.source.map Source.parse).getD st.source
    session := rec.session.or st.session
    clientOpId := rec.clientOpId.or st.clientOpId
    error := rec.error.or st.error
    schema := rec.schema.or st.schema
    rows := rec.rows.or st.rows
    durationMs := rec.durationMs.or st.durationMs
    result := if rec.kind = .snapshot then rec.result else rec.result.or st.result
    resultRefused :=
      if rec.kind = .snapshot then rec.resultRefused else rec.resultRefused.or st.resultRefused}

def fold (st : FoldedStatement) (rec : JournalRecord) : FoldedStatement :=
  if rec.foldKey < st.foldKey then st.backfill rec else st.advance rec

def toSnapshot (st : FoldedStatement) : JournalRecord where
  kind := .snapshot
  seq := st.seq
  lastSeq := some st.lastSeq
  id := st.id
  clientOpId := st.clientOpId
  session := st.session
  source := some st.source.asStr
  sql := some st.sql
  sqlEncoding := some st.sqlEncoding
  status := some st.status
  error := st.error
  schema := st.schema
  rows := st.rows
  submittedAtMs := st.submittedAtMs
  durationMs := st.durationMs
  result := st.result
  resultRefused := st.resultRefused

end FoldedStatement

structure Fold where
  statements : List FoldedStatement := []
  tombstoned : List String := []
  maxSeq : Nat := 0
  records : Nat := 0
  deriving DecidableEq, Repr

namespace Fold

def get (fold : Fold) (id : String) : Option FoldedStatement :=
  row FoldedStatement.id fold.statements id

def enter (statements : List FoldedStatement) (rec : JournalRecord) : List FoldedStatement :=
  match row FoldedStatement.id statements rec.id with
  | some _ => statements.map fun st => if st.id = rec.id then st.fold rec else st
  | none => statements ++ [.ofRecord rec]

def count (fold : Fold) (rec : JournalRecord) : Fold :=
  {fold with
    records := fold.records+1
    maxSeq := max (max fold.maxSeq rec.writeSeq) rec.seq}

def apply (fold : Fold) (rec : JournalRecord) : Fold :=
  if rec.id ∈ fold.tombstoned then fold.count rec
  else if rec.kind = .tombstone then
    {fold.count rec with
      statements := fold.statements.filter fun st => st.id ≠ rec.id
      tombstoned := rec.id::fold.tombstoned}
  else {fold.count rec with statements := enter fold.statements rec}

end Fold

open List

namespace FoldedStatement

def next (st : Option FoldedStatement) (rec : JournalRecord) : FoldedStatement :=
  st.elim (ofRecord rec) fun st => st.fold rec

@[simp] lemma fold_id (st : FoldedStatement) (rec) : (st.fold rec).id = st.id := by
  unfold fold
  split <;> rfl

@[simp] lemma fold_foldKey (st : FoldedStatement) (rec) : (st.fold rec).foldKey = max st.foldKey rec.foldKey := by
  unfold fold
  split
  · next older => exact (max_eq_left older.le).symm
  · next newer => exact (max_eq_right (not_lt.mp newer)).symm

end FoldedStatement

namespace Fold

structure Valid (fold : Fold) : Prop where
  distinct : Distinct FoldedStatement.id fold.statements
  buried : ∀ id ∈ fold.tombstoned, fold.get id = none

lemma Valid.empty : Valid {} := ⟨nodup_nil,by simp⟩

variable {fold : Fold}

lemma ids_enter (statements : List FoldedStatement) (rec) :
    (enter statements rec).map FoldedStatement.id =
      if rec.id ∈ statements.map FoldedStatement.id then statements.map FoldedStatement.id
      else statements.map FoldedStatement.id ++ [rec.id] := by
  unfold enter
  cases there : row FoldedStatement.id statements rec.id with
  | none =>
    have fresh : rec.id ∉ statements.map FoldedStatement.id := by simpa using row_eq_none.mp there
    simp [fresh,FoldedStatement.ofRecord]
  | some st =>
    have known := mem_map.mpr ⟨st,row_mem there,row_key there⟩
    rw [if_pos known,map_map]
    apply map_congr_left
    intro other _
    simp only [Function.comp_apply]
    split <;> simp

variable {statements : List FoldedStatement} {st : FoldedStatement}

lemma distinct_enter (distinct : Distinct FoldedStatement.id statements) (rec) :
    Distinct FoldedStatement.id (enter statements rec) := by
  unfold Distinct at distinct ⊢
  rw [ids_enter]
  split
  · exact distinct
  · next fresh => exact distinct.append (nodup_singleton _) (by simpa using fresh)

lemma row_enter (rec : JournalRecord) (id) :
    row FoldedStatement.id (enter statements rec) id =
      if rec.id = id then some (FoldedStatement.next (row FoldedStatement.id statements id) rec)
      else row FoldedStatement.id statements id := by
  unfold enter
  cases there : row FoldedStatement.id statements rec.id with
  | none =>
    rw [row_append]
    split
    · next same =>
      subst same
      rw [there]
      simp [row,FoldedStatement.next,FoldedStatement.ofRecord]
    · next apart => simp [row,FoldedStatement.ofRecord,apart]
  | some st =>
    have keeps : ∀ other : FoldedStatement, (if other.id = rec.id then other.fold rec else other).id = other.id := by
      intro other
      split <;> simp
    have moved : row FoldedStatement.id (statements.map fun st => if st.id = rec.id then st.fold rec else st) id =
        (row FoldedStatement.id statements id).map fun st => if st.id = rec.id then st.fold rec else st := by
      unfold row
      rw [find?_map]
      simp only [Function.comp_def,keeps]
    rw [moved]
    split
    · next same =>
      subst same
      simp [there,FoldedStatement.next,row_key there]
    · next apart =>
      cases found : row FoldedStatement.id statements id with
      | none => rfl
      | some other => simp [row_key found,Ne.symm apart]

@[simp] lemma count_tombstoned (rec) : (fold.count rec).tombstoned = fold.tombstoned := rfl

lemma tombstoned_apply (rec id) :
    id ∈ (fold.apply rec).tombstoned ↔ id ∈ fold.tombstoned ∨ (rec.kind = .tombstone ∧ rec.id = id) := by
  unfold apply
  split
  · next known =>
    constructor
    · exact Or.inl
    · rintro (there | ⟨_,rfl⟩) <;> assumption
  · split
    · next tomb => simp [tomb,eq_comm,or_comm]
    · next kept => simp [kept]

lemma get_apply (valid : fold.Valid) (rec id) :
    (fold.apply rec).get id =
      if id ∈ (fold.apply rec).tombstoned then none
      else if rec.id = id then some (FoldedStatement.next (fold.get id) rec) else fold.get id := by
  by_cases gone : id ∈ (fold.apply rec).tombstoned
  · rw [if_pos gone]
    rw [tombstoned_apply] at gone
    unfold apply get
    split
    · next known =>
      rcases gone with there | ⟨_,rfl⟩
      · exact valid.buried id there
      · exact valid.buried _ known
    · next unknown =>
      rcases gone with there | ⟨tomb,rfl⟩
      · have none_ : row FoldedStatement.id fold.statements id = none := valid.buried id there
        split
        · rw [valid.distinct.row_filter,none_]
          rfl
        · rw [row_enter,if_neg,none_]
          rintro rfl
          exact unknown there
      · rw [if_pos tomb,row_eq_none]
        intro st mem
        simpa using (mem_filter.mp mem).2
  · rw [if_neg gone]
    rw [tombstoned_apply,not_or] at gone
    unfold apply get
    split
    · next known =>
      rw [if_neg]
      · rfl
      · rintro rfl
        exact gone.1 known
    · split
      · next tomb =>
        have apart : rec.id ≠ id := fun same => gone.2 ⟨tomb,same⟩
        rw [if_neg apart,valid.distinct.row_filter]
        cases found : row FoldedStatement.id fold.statements id with
        | none => rfl
        | some st => simp [row_key found,Ne.symm apart]
      · exact row_enter rec id

lemma Valid.apply (valid : fold.Valid) (rec) : (fold.apply rec).Valid where
  distinct := by
    unfold Fold.apply
    split
    · exact valid.distinct
    · split
      · exact valid.distinct.filter _
      · exact distinct_enter valid.distinct rec
  buried id gone := by rw [get_apply valid,if_pos gone]

def all (fold : Fold) (recs : List JournalRecord) : Fold := recs.foldl apply fold

@[simp] lemma all_nil : fold.all [] = fold := rfl

@[simp] lemma all_cons (rec recs) : fold.all (rec::recs) = (fold.apply rec).all recs := rfl

lemma all_append (first rest) : fold.all (first ++ rest) = (fold.all first).all rest := foldl_append

lemma Valid.all (valid : fold.Valid) (recs) : (fold.all recs).Valid := by
  induction recs generalizing fold with
  | nil => exact valid
  | cons rec recs ih => exact ih (valid.apply rec)

lemma tombstoned_all (id) :
    id ∈ (fold.all recs).tombstoned ↔ id ∈ fold.tombstoned ∨ ∃ rec ∈ recs, rec.kind = .tombstone ∧ rec.id = id := by
  induction recs generalizing fold with
  | nil => simp
  | cons rec recs ih =>
    rw [all_cons,ih,tombstoned_apply,or_assoc]
    simp

def entry (st : Option FoldedStatement) (recs : List JournalRecord) : Option FoldedStatement :=
  recs.foldl (fun st rec => some (FoldedStatement.next st rec)) st

lemma get_all (valid : fold.Valid) (id) :
    (fold.all recs).get id =
      if id ∈ (fold.all recs).tombstoned then none
      else entry (fold.get id) (recs.filter fun rec => rec.id = id) := by
  induction recs generalizing fold with
  | nil =>
    change fold.get id = if id ∈ fold.tombstoned then none else fold.get id
    by_cases gone : id ∈ fold.tombstoned
    · rw [if_pos gone,valid.buried id gone]
    · rw [if_neg gone]
  | cons rec recs ih =>
    rw [all_cons,ih (valid.apply rec),get_apply valid]
    split
    · rfl
    · next live =>
      have before : id ∉ (fold.apply rec).tombstoned := fun gone => live ((tombstoned_all id).mpr (.inl gone))
      rw [if_neg before]
      by_cases same : rec.id = id <;> simp [same,entry]

lemma entry_induction {good : JournalRecord → Prop} {holds : FoldedStatement → Prop}
    (first : ∀ rec, good rec → holds (.ofRecord rec))
    (more : ∀ st rec, holds st → good rec → holds (st.fold rec))
    {start : Option FoldedStatement} {recs : List JournalRecord} {last : FoldedStatement}
    (began : ∀ st ∈ start, holds st) (all : ∀ rec ∈ recs, good rec)
    (ended : entry start recs = some last) : holds last := by
  induction recs generalizing start with
  | nil => exact began last ended
  | cons rec recs ih =>
    have here : good rec := all rec mem_cons_self
    refine ih ?_ (fun other mem => all other (mem_cons_of_mem _ mem)) ended
    rintro st same
    obtain rfl := Option.some.inj same
    cases start with
    | none => exact first rec here
    | some before => exact more before rec (began before rfl) here

lemma entry_some (st : FoldedStatement) :
    ∃ last, entry (some st) recs = some last ∧ last.id = st.id ∧ st.foldKey ≤ last.foldKey := by
  induction recs generalizing st with
  | nil => exact ⟨st,rfl,rfl,le_rfl⟩
  | cons rec recs ih =>
    obtain ⟨last,ended,same,later⟩ := ih (st.fold rec)
    rw [FoldedStatement.fold_foldKey] at later
    exact ⟨last,ended,by simpa using same,(le_max_left _ _).trans later⟩

lemma entry_covers {start : Option FoldedStatement} {recs : List JournalRecord}
    {rec : JournalRecord} (mem : rec ∈ recs) :
    ∃ last, entry start recs = some last ∧ rec.foldKey ≤ last.foldKey := by
  induction recs generalizing start with
  | nil => cases mem
  | cons first recs ih =>
    rcases mem_cons.mp mem with rfl | later
    · obtain ⟨last,ended,_,newer⟩ := entry_some (FoldedStatement.next start rec)
      refine ⟨last,ended,le_trans ?_ newer⟩
      cases start with
      | none => exact le_rfl
      | some st =>
        rw [FoldedStatement.next,Option.elim_some,FoldedStatement.fold_foldKey]
        exact le_max_right _ _
    · exact ih later

lemma Valid.get_eq_some (valid : fold.Valid) {id : String} :
    fold.get id = some st ↔ st ∈ fold.statements ∧ st.id = id := valid.distinct.row_eq_some

variable {recs : List JournalRecord}

lemma covers {rec : JournalRecord} (mem : rec ∈ recs)
    (kept : ∀ other ∈ recs, other.kind = .tombstone → other.id ≠ rec.id) :
    ∃ st ∈ (({} : Fold).all recs).statements, st.id = rec.id ∧ rec.foldKey ≤ st.foldKey := by
  have valid : (({} : Fold).all recs).Valid := Valid.empty.all recs
  have live : rec.id ∉ (({} : Fold).all recs).tombstoned := by
    rw [tombstoned_all]
    rintro (none_ | ⟨other,there,tomb,same⟩)
    · cases none_
    · exact kept other there tomb same
  have own : rec ∈ recs.filter fun other => other.id = rec.id :=
    mem_filter.mpr ⟨mem,by simp⟩
  obtain ⟨last,ended,newer⟩ := @entry_covers (({} : Fold).get rec.id) _ _ own
  have found : (({} : Fold).all recs).get rec.id = some last := by
    rw [get_all Valid.empty,if_neg live]
    exact ended
  obtain ⟨there,same⟩ := valid.get_eq_some.mp found
  exact ⟨last,there,same,newer⟩

lemma statements_induction {good : JournalRecord → Prop} {holds : FoldedStatement → Prop}
    (first : ∀ rec, rec.kind ≠ .tombstone → good rec → holds (.ofRecord rec))
    (more : ∀ st rec, rec.id = st.id → rec.kind ≠ .tombstone → holds st → good rec → holds (st.fold rec))
    (all : ∀ rec ∈ recs, good rec) {st : FoldedStatement}
    (mem : st ∈ (({} : Fold).all recs).statements) : holds st := by
  have valid : (({} : Fold).all recs).Valid := Valid.empty.all recs
  have found := valid.get_eq_some.mpr ⟨mem,rfl⟩
  rw [get_all Valid.empty] at found
  split at found
  · cases found
  · next live =>
    rw [tombstoned_all] at live
    have own : ∀ rec ∈ recs.filter (fun rec => rec.id = st.id),
        rec.id = st.id ∧ rec.kind ≠ .tombstone ∧ good rec := by
      intro rec chosen
      obtain ⟨there,same⟩ := mem_filter.mp chosen
      have same : rec.id = st.id := by simpa using same
      exact ⟨same,fun tomb => live (.inr ⟨rec,there,tomb,same⟩),all rec there⟩
    refine (@entry_induction (fun rec => rec.id = st.id ∧ rec.kind ≠ .tombstone ∧ good rec)
      (fun made => made.id = st.id ∧ holds made) ?_ ?_ _ _ _ (by rintro _ ⟨⟩) own found).2
    · rintro rec ⟨same,kept,fine⟩
      exact ⟨same,first rec kept fine⟩
    · rintro before rec ⟨same,held⟩ ⟨mine,kept,fine⟩
      exact ⟨by simpa using same,more before rec (mine.trans same.symm) kept held fine⟩

lemma rank_le (mem : st ∈ (({} : Fold).all recs).statements) : st.rank ≤ RecordKind.snapshot.rank := by
  have ranks : ∀ kind : RecordKind, kind ≠ .tombstone → kind.rank ≤ RecordKind.snapshot.rank := by
    intro kind kept
    cases kind <;> first | decide | exact absurd rfl kept
  refine @statements_induction recs (fun _ => True) (fun st => st.rank ≤ RecordKind.snapshot.rank)
    (fun rec kept _ => ranks rec.kind kept) ?_ (fun _ _ => trivial) st mem
  intro st rec _ kept held _
  unfold FoldedStatement.fold
  split
  · exact held
  · exact ranks rec.kind kept

lemma foldKey_le_toSnapshot (mem : st ∈ (({} : Fold).all recs).statements) : st.foldKey ≤ st.toSnapshot.foldKey :=
  Prod.Lex.toLex_le_toLex.mpr (.inr ⟨rfl,rank_le mem⟩)

lemma ofRecord_toSnapshot (st : FoldedStatement) :
    .ofRecord st.toSnapshot = {st with rank := RecordKind.snapshot.rank} := by
  have parsed : Source.parse st.source.asStr = st.source := by cases st.source <;> rfl
  simp [FoldedStatement.ofRecord,FoldedStatement.toSnapshot,JournalRecord.writeSeq,parsed]

lemma entry_toSnapshot (st : FoldedStatement) (again : Nat) :
    entry none (replicate (again+1) st.toSnapshot) = some (.ofRecord st.toSnapshot) := by
  induction again with
  | zero => rfl
  | succ again ih =>
    unfold entry at ih ⊢
    rw [replicate_succ',foldl_append,ih]
    simp [FoldedStatement.next,FoldedStatement.fold,FoldedStatement.advance,FoldedStatement.ofRecord,
      FoldedStatement.toSnapshot,FoldedStatement.foldKey,JournalRecord.foldKey,JournalRecord.writeSeq]

/-- Whatever statements of a journal are kept as snapshots, and however often these are read again,
they fold back to the statements whole. -/
theorem snapshots_fold_back (recs : List JournalRecord) (keep : FoldedStatement → Bool) (again : Nat) (id : String) :
    let kept := (({} : Fold).all recs).statements.filter keep
    (({} : Fold).all (replicate (again+1) (kept.map FoldedStatement.toSnapshot)).flatten).get id =
      ((({} : Fold).all recs).get id |>.filter keep).map fun st => {st with rank := RecordKind.snapshot.rank} := by
  intro kept
  have distinct := (Valid.empty.all recs).distinct
  have own : (kept.map FoldedStatement.toSnapshot).filter (fun rec => rec.id = id) =
      ((({} : Fold).all recs).get id |>.filter keep).toList.map FoldedStatement.toSnapshot := by
    rw [filter_map,get,← distinct.row_filter,← (distinct.filter keep).filter_key]
    rfl
  rw [get_all Valid.empty,if_neg (by rw [tombstoned_all]; simp [FoldedStatement.toSnapshot]),
    filter_flatten,map_replicate,own]
  change entry none _ = _
  cases (({} : Fold).all recs).get id |>.filter keep with
  | none => simp [entry]
  | some st => simpa [← ofRecord_toSnapshot] using entry_toSnapshot st again

end Fold
end Oxidant.History
