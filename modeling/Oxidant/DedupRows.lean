import Oxidant.Lib.KeepNew
import Oxidant.Streaming.Source

/-! What deduplication keeps of a micro-batch and what it remembers of it, in terms of the keys
its rows claim. -/
namespace Oxidant.DedupRows
open Lib Streaming DedupState List Option

lemma contains_insert (seen : BTreeMap Int) :
    (seen.insert key at').contains other = (seen.contains other || decide (other = key)) := by
  by_cases same : other = key
  · simp [same]
  · simp [same,Ne.symm same]

lemma contains_eq_isSome (seen : BTreeMap Int) (key) : seen.contains key = seen[key]?.isSome := by
  rw [Std.ExtTreeMap.isSome_getElem?_eq_contains]

section Rows
variable (key : Row → String) (eventTime : Row → Option Int)

def claim (row : Row) : String × Int := (key row,(eventTime row).getD I64.max)

lemma dedupRows_kept (state : DedupState) :
    (dedupRows key eventTime state rows).2 = keepNew key state.seen.contains rows := by
  induction rows generalizing state with
  | nil => rfl
  | cons row rows ih =>
    simp only [dedupRows,dedupRow,keepNew]
    split
    · exact ih state
    · refine congrArg (row::·) ((ih _).trans (keepNew_congr fun later _ => ?_))
      exact contains_insert _

lemma dedupRows_seen :
    (dedupRows key eventTime state rows).1.seen[found]? =
      (state.seen[found]?).or ((rows.map (claim key eventTime)).lookup found) := by
  induction rows generalizing state with
  | nil => simp [dedupRows]
  | cons row rows ih =>
    simp only [dedupRows,dedupRow,map_cons,claim]
    split
    · next old =>
      rw [ih]
      by_cases same : found = key row
      · subst same
        rw [contains_eq_isSome] at old
        obtain ⟨value,there⟩ := isSome_iff_exists.mp old
        rw [there]
        rfl
      · rw [lookup_cons,beq_false_of_ne same]
    · next new =>
      rw [ih,Std.ExtTreeMap.getElem?_insert,lookup_cons]
      by_cases same : found = key row
      · subst same
        have none : state.seen[key row]? = none := by simpa using new
        simp [none]
      · rw [beq_false_of_ne same]
        simp [Ne.symm same]

lemma dedupRows_contains :
    (dedupRows key eventTime state rows).1.seen.contains found =
      (state.seen.contains found || ((rows.map (claim key eventTime)).lookup found).isSome) := by
  rw [contains_eq_isSome,dedupRows_seen,isSome_or,contains_eq_isSome]

end Rows

section Batches
variable (formatter : ArrayFormatter) (keyCols : List Nat) (eventTimeCol : Option Nat)

/-- The keys the rows of a batch claim, each with its event time; none for a batch that cannot
be keyed. -/
def batchClaims (batch : RecordBatch) : List (String × Int) :=
  match keyFormatters formatter batch keyCols with
  | .ok formatters => batch.rows.map (claim (rowKey formatters) (eventTimes eventTimeCol batch))
  | .error _ => []

def claims (batches : List RecordBatch) : List (String × Int) :=
  batches.flatMap (batchClaims formatter keyCols eventTimeCol)

def Keyable (batches : List RecordBatch) : Prop :=
  ∀ batch ∈ batches,(keyFormatters formatter batch keyCols).isOk = true

instance (batches : List RecordBatch) : Decidable (Keyable formatter keyCols batches) :=
  inferInstanceAs (Decidable (∀ batch ∈ batches,_))

variable {formatter keyCols eventTimeCol}

private lemma claims_cons (keyed : keyFormatters formatter batch keyCols = .ok formatters) (batches) :
    claims formatter keyCols eventTimeCol (batch::batches) =
      batch.rows.map (claim (rowKey formatters) (eventTimes eventTimeCol batch)) ++
        claims formatter keyCols eventTimeCol batches := by
  simp only [claims,flatMap_cons,batchClaims,keyed]

private lemma map_claim (key eventTime) (rows : List Row) :
    (rows.map (claim key eventTime)).map Prod.fst = rows.map key := by
  simp [claim]

private lemma dedupEach_error (unkeyed : keyFormatters formatter batch keyCols = .error e) (state batches) :
    dedupEach formatter keyCols eventTimeCol state (batch::batches) = (.error e,state) := by
  simp only [dedupEach,unkeyed]

private lemma dedupEach_cons (keyed : keyFormatters formatter batch keyCols = .ok formatters) (state batches) :
    dedupEach formatter keyCols eventTimeCol
    state (batch::batches) = let rows := keepNew (rowKey formatters) state.seen.contains batch.rows
      let rest := dedupEach formatter keyCols eventTimeCol
        (dedupRows (rowKey formatters) (eventTimes eventTimeCol batch) state batch.rows).1 batches
      (rest.1.map fun out => if rows.isEmpty then out else {batch with rows}::out,rest.2) := by
  simp only [dedupEach,keyed,dedupRows_kept]
  split <;> next same => simp only [same,Except.map]

lemma dedupEach_congr
    (agree : ∀ key ∈ (claims formatter keyCols eventTimeCol batches).map Prod.fst,
        state.seen.contains key = other.seen.contains key) :
    (dedupEach formatter keyCols eventTimeCol state batches).1 =
      (dedupEach formatter keyCols eventTimeCol other batches).1 := by
  induction batches generalizing state other with
  | nil => rfl
  | cons batch batches ih =>
    cases keyed : keyFormatters formatter batch keyCols with
    | error e => rw [dedupEach_error keyed,dedupEach_error keyed]
    | ok formatters =>
      rw [claims_cons keyed,map_append,map_claim] at agree
      have rows : keepNew (rowKey formatters) state.seen.contains batch.rows =
          keepNew (rowKey formatters) other.seen.contains batch.rows := by
        apply keepNew_congr
        intro row mem
        exact agree _ (mem_append_left _ (mem_map_of_mem mem))
      rw [dedupEach_cons keyed,dedupEach_cons keyed,rows]
      dsimp only
      congr 1
      apply ih
      intro key mem
      rw [dedupRows_contains,dedupRows_contains,agree key (mem_append_right _ mem)]

lemma dedupEach_isOk (state batches) :
    (dedupEach formatter keyCols eventTimeCol state batches).1.isOk = true ↔ Keyable formatter keyCols batches := by
  induction batches generalizing state with
  | nil => simp [dedupEach,Keyable,Except.isOk,Except.toBool]
  | cons batch batches ih =>
    cases keyed : keyFormatters formatter batch keyCols with
    | error e => simp [dedupEach_error keyed,Keyable,keyed,Except.isOk,Except.toBool]
    | ok formatters =>
      have rest := ih (dedupRows (rowKey formatters) (eventTimes eventTimeCol batch) state batch.rows).1
      rw [dedupEach_cons keyed]
      simp only [Keyable,forall_mem_cons,keyed] at rest ⊢
      rw [← rest]
      cases (dedupEach formatter keyCols eventTimeCol
        (dedupRows (rowKey formatters) (eventTimes eventTimeCol batch) state batch.rows).1
        batches).1 <;> simp [Except.map,Except.isOk,Except.toBool]

lemma dedupEach_unkeyable (unkeyable : ¬Keyable formatter keyCols batches) (state other) :
    (dedupEach formatter keyCols eventTimeCol state batches).1 =
      (dedupEach formatter keyCols eventTimeCol other batches).1 := by
  induction batches generalizing state other with
  | nil => rfl
  | cons batch batches ih =>
    cases keyed : keyFormatters formatter batch keyCols with
    | error e => rw [dedupEach_error keyed,dedupEach_error keyed]
    | ok formatters =>
      have later : ¬Keyable formatter keyCols batches := by
        intro rest
        apply unkeyable
        simp only [Keyable,forall_mem_cons,keyed]
        exact ⟨rfl,rest⟩
      rw [dedupEach_cons keyed,dedupEach_cons keyed]
      dsimp only
      rw [ih later _ (dedupRows (rowKey formatters) (eventTimes eventTimeCol batch) other batch.rows).1]
      cases result : (dedupEach formatter keyCols eventTimeCol (dedupRows (rowKey formatters)
        (eventTimes eventTimeCol batch) other batch.rows).1 batches).1 with
      | error e => rfl
      | ok out => exact absurd ((dedupEach_isOk _ batches).mp (congrArg Except.isOk result)) later

lemma dedupEach_seen (keyable : Keyable formatter keyCols batches) (key) :
    (dedupEach formatter keyCols eventTimeCol state batches).2.seen[key]? =
      (state.seen[key]?).or ((claims formatter keyCols eventTimeCol batches).lookup key) := by
  induction batches generalizing state with
  | nil => simp [dedupEach,claims]
  | cons batch batches ih =>
    have first := keyable batch mem_cons_self
    cases keyed : keyFormatters formatter batch keyCols with
    | error e => simp [keyed,Except.isOk,Except.toBool] at first
    | ok formatters =>
      rw [dedupEach_cons keyed,claims_cons keyed,List.lookup_append,← Option.or_assoc,← dedupRows_seen]
      exact ih fun batch mem => keyable batch (mem_cons_of_mem _ mem)

private lemma keys_kept (keyed : keyFormatters formatter batch keyCols = .ok formatters) (rows out) :
    (claims formatter keyCols eventTimeCol (if rows.isEmpty then out else {batch with rows}::out)).map Prod.fst =
      rows.map (rowKey formatters) ++ (claims formatter keyCols eventTimeCol out).map Prod.fst := by
  cases rows with
  | nil => rfl
  | cons row rows =>
    have same : keyFormatters formatter {batch with rows := row::rows} keyCols = .ok formatters :=
      keyed
    simp only [isEmpty_cons,Bool.false_eq_true,if_false]
    rw [claims_cons same,map_append,map_claim]

lemma lookup_isSome_iff (found : List (String × Int)) (key) :
    (found.lookup key).isSome = true ↔ key ∈ found.map Prod.fst := by
  induction found with
  | nil => simp
  | cons claim found ih =>
    by_cases same : key = claim.1
    · simp [same]
    · simp [same]

lemma mem_claims_dedupEach (done : (dedupEach formatter keyCols eventTimeCol state batches).1 = .ok out)
    (key : String) :
    key ∈ (claims formatter keyCols eventTimeCol out).map Prod.fst ↔
    key ∈ (claims formatter keyCols eventTimeCol batches).map Prod.fst ∧ state.seen.contains key = false := by
  induction batches generalizing state out with
  | nil =>
    cases done
    simp [claims]
  | cons batch batches ih =>
    cases keyed : keyFormatters formatter batch keyCols with
    | error e =>
      rw [dedupEach_error keyed] at done
      cases done
    | ok formatters =>
      rw [dedupEach_cons keyed] at done
      dsimp only at done
      cases rest : (dedupEach formatter keyCols eventTimeCol (dedupRows (rowKey formatters)
        (eventTimes eventTimeCol batch) state batch.rows).1 batches).1 with
      | error e => simp [rest,Except.map] at done
      | ok later =>
        rw [rest] at done
        cases done
        rw [keys_kept keyed,claims_cons keyed,map_append,map_claim,mem_append,
          mem_append,mem_map_keepNew,ih rest,dedupRows_contains,Bool.or_eq_false_iff,
          ← Bool.not_eq_true (Option.isSome _),lookup_isSome_iff,map_claim]
        constructor
        · rintro (⟨here,new⟩ | ⟨later,new,_⟩)
          · exact ⟨.inl here,new⟩
          · exact ⟨.inr later,new⟩
        · rintro ⟨here | later,new⟩
          · exact .inl ⟨here,new⟩
          · by_cases here : key ∈ batch.rows.map (rowKey formatters)
            · exact .inl ⟨here,new⟩
            · exact .inr ⟨later,new,here⟩

end Batches

end Oxidant.DedupRows
