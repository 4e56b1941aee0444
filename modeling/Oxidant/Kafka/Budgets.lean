import Mathlib.Algebra.Order.BigOperators.Group.List
import Mathlib.Algebra.Order.Group.Nat
import Oxidant.Kafka.Calls
import Oxidant.Lib.Apportionment
import Oxidant.Lib.Traverse
import Oxidant.Lib.Unsigned

/-! The division of `maxOffsetsPerTrigger` over the partitions: first as the source computes it, in
machine words and over a map of shares, then what the shares are. -/
namespace Oxidant.Kafka
open List hiding after count
open Lib Streaming

def shareValues (shares : PartitionMap Nat) : List Nat := shares.toList.map Prod.snd

section Words
open Unsigned

def rotatedWord (len start i : Nat) : Option Nat := do
  let behind ← sub (← add 64 i len) start
  return behind % len

def grow (shares : PartitionMap Nat) (tp : TopicPartition) (records : Nat) : Option (PartitionMap Nat) := do
  let share ← shares[tp]?
  return shares.insert tp (← add 64 share records)

def budgetWindow (budget roundRobin : Nat) (partitions : List TopicPartition) : Option (PartitionMap Nat) :=
  let start := roundRobin % partitions.length
  partitions.zipIdx.foldlM (fun shares (tp,i) => do
    let offset ← rotatedWord partitions.length start i
    return shares.insert tp (if offset < budget then 1 else 0)) ∅

def proportionalShares (budget remaining : Nat) (partitions : List TopicPartition)
    (lagOf : TopicPartition → Nat) (totalLag : Nat) (shares : PartitionMap Nat) :
    Option (PartitionMap Nat × Nat) := do
  let shares ← partitions.foldlM (fun shares tp => do
    let share ← fits 64 ((← mul 128 remaining (lagOf tp)) / totalLag)
    grow shares tp share) shares
  let assigned ← sum 64 (shareValues shares)
  return (shares,budget - assigned)

def spreadRemainder (roundRobin remaining : Nat) (partitions : List TopicPartition)
    (shares : PartitionMap Nat) : Option (PartitionMap Nat) :=
  let n := partitions.length
  let each := remaining / n
  let extra := remaining % n
  let start := roundRobin % n
  partitions.zipIdx.foldlM (fun shares (tp,i) => do
    let rotated ← rotatedWord n start i
    grow shares tp (← add 64 each (if rotated < extra then 1 else 0))) shares

def partitionBudgetWords (budget roundRobin : Nat) (partitions : List TopicPartition)
    (lag : PartitionMap Nat) : Option (PartitionMap Nat) := do
  let n ← fits 64 partitions.length
  if n = 0 then return ∅
  else if budget < n then budgetWindow budget roundRobin partitions
  else
    let lagOf := fun tp => lag[tp]?.getD 1
    let totalLag ← sum 128 (partitions.map lagOf)
    let shares := partitions.foldl (fun shares tp => shares.insert tp 1) ∅
    let remaining ← sub budget n
    let (shares,remaining) ← if 0 < totalLag then proportionalShares budget remaining partitions lagOf totalLag shares
      else some (shares,remaining)
    spreadRemainder roundRobin remaining partitions shares

end Words

def spread (partitions : List TopicPartition) (share : Nat → TopicPartition → Nat) : PartitionMap Nat :=
  partitions.zipIdx.foldl (fun shares (tp,i) => shares.insert tp (share i tp)) ∅

section Spread
variable {partitions : List TopicPartition}

lemma foldl_insert_getElem? (key) (value : ι → Nat) (items : List ι) (distinct : (items.map key).Nodup)
    (shares : PartitionMap Nat) :
    (∀ item ∈ items, (items.foldl (fun shares item => shares.insert (key item) (value item)) shares)[key item]? =
          some (value item)) ∧
    ∀ tp ∉ items.map key,
      (items.foldl (fun shares item => shares.insert (key item) (value item)) shares)[tp]? = shares[tp]? := by
  induction items generalizing shares with
  | nil => simp
  | cons item items ih =>
    rw [map_cons,nodup_cons] at distinct
    obtain ⟨inside,outside⟩ := ih distinct.2 (shares.insert (key item) (value item))
    rw [foldl_cons]
    constructor
    · intro found mem
      rcases mem_cons.mp mem with rfl | later
      · rw [outside _ distinct.1,getElem?_insert,if_pos rfl]
      · exact inside found later
    · intro tp absent
      rw [map_cons,mem_cons,not_or] at absent
      rw [outside tp absent.2,getElem?_insert,if_neg (Ne.symm absent.1)]

lemma foldlM_grow (key) (share amount : ι → Nat) (items : List ι) (distinct : (items.map key).Nodup) (step)
    (steps : ∀ item ∈ items, ∀ shares, step shares item = grow shares (key item) (amount item))
    (shares) (seeded : ∀ item ∈ items, shares[key item]? = some (share item))
    (small : ∀ item ∈ items, share item + amount item < 2^64) :
    ∃ after, items.foldlM step shares = some after ∧
      (∀ item ∈ items, after[key item]? = some (share item + amount item)) ∧
      ∀ tp ∉ items.map key, after[tp]? = shares[tp]? := by
  induction items generalizing shares with
  | nil => exact ⟨shares,rfl,by simp,by simp⟩
  | cons item items ih =>
    rw [map_cons,nodup_cons] at distinct
    have grown : step shares item = some (shares.insert (key item) (share item + amount item)) := by
      rw [steps item mem_cons_self,grow,seeded item mem_cons_self]
      simp [Unsigned.add_eq (small item mem_cons_self)]
    have apart : ∀ other ∈ items, key item ≠ key other :=
      fun other mem same => distinct.1 (same ▸ mem_map_of_mem mem)
    obtain ⟨after,done,inside,outside⟩ := ih distinct.2 (fun other mem => steps other (mem_cons_of_mem _ mem))
      (shares.insert (key item) (share item + amount item))
      (fun other mem => by
        rw [getElem?_insert,if_neg (apart other mem)]
        exact seeded other (mem_cons_of_mem _ mem))
      (fun other mem => small other (mem_cons_of_mem _ mem))
    refine ⟨after,?_,?_,?_⟩
    · rw [foldlM_cons,grown]
      exact done
    · intro found mem
      rcases mem_cons.mp mem with rfl | later
      · rw [outside _ distinct.1,getElem?_insert,if_pos rfl]
      · exact inside found later
    · intro tp absent
      rw [map_cons,mem_cons,not_or] at absent
      rw [outside tp absent.2,getElem?_insert,if_neg (Ne.symm absent.1)]

lemma zipIdx_distinct (distinct : partitions.Nodup) : (partitions.zipIdx.map Prod.fst).Nodup := by
  rwa [zipIdx_map_fst]

lemma exists_place (mem : tp ∈ partitions) : ∃ i < partitions.length, (tp,i) ∈ partitions.zipIdx := by
  obtain ⟨i,inside,same⟩ := getElem_of_mem mem
  refine ⟨i,inside,?_⟩
  rw [mem_zipIdx_iff_getElem?]
  simp [same,inside]

lemma spread_getElem? (distinct : partitions.Nodup) (place : (tp,i) ∈ partitions.zipIdx) :
    (spread partitions share)[tp]? = some (share i tp) :=
  (foldl_insert_getElem? Prod.fst (fun item => share item.2 item.1) _ (zipIdx_distinct distinct) ∅).1 _ place

lemma spread_absent (distinct : partitions.Nodup) (absent : tp ∉ partitions) :
    (spread partitions share)[tp]? = none := by
  have outside := (foldl_insert_getElem? Prod.fst (fun item => share item.2 item.1) _
    (zipIdx_distinct distinct) ∅).2 tp (by rwa [zipIdx_map_fst])
  exact outside.trans Std.ExtTreeMap.getElem?_empty

lemma eq_spread (distinct : partitions.Nodup)
    (present : ∀ tp i, (tp,i) ∈ partitions.zipIdx → shares[tp]? = some (share i tp))
    (absent : ∀ tp ∉ partitions, shares[tp]? = none) : shares = spread partitions share := by
  apply Std.ExtTreeMap.ext_getElem?
  intro tp
  by_cases mem : tp ∈ partitions
  · obtain ⟨i,_,place⟩ := exists_place mem
    rw [present tp i place,spread_getElem? distinct place]
  · rw [absent tp mem,spread_absent distinct mem]

lemma shareValues_perm (distinct : partitions.Nodup) :
    (shareValues (spread partitions share)).Perm (partitions.zipIdx.map fun (tp,i) => share i tp) := by
  have keys : (spread partitions share).keys.Perm partitions := by
    rw [perm_ext_iff_of_nodup Std.ExtTreeMap.nodup_keys distinct]
    intro tp
    rw [Std.ExtTreeMap.mem_keys,Std.ExtTreeMap.mem_iff_isSome_getElem?]
    by_cases mem : tp ∈ partitions
    · obtain ⟨i,_,place⟩ := exists_place mem
      simp [spread_getElem? distinct place,mem]
    · simp [spread_absent distinct mem,mem]
  have lookups : shareValues (spread partitions share) =
      (spread partitions share).keys.map fun tp => ((spread partitions share)[tp]?).getD 0 := by
    rw [← Std.ExtTreeMap.map_fst_toList_eq_keys,map_map]
    apply map_congr_left
    intro entry mem
    obtain ⟨tp,value⟩ := entry
    simp [Std.ExtTreeMap.mem_toList_iff_getElem?_eq_some.mp mem]
  have places : partitions.map (fun tp => ((spread partitions share)[tp]?).getD 0) =
      partitions.zipIdx.map fun (tp,i) => share i tp := by
    calc partitions.map (fun tp => ((spread partitions share)[tp]?).getD 0)
      _ = (partitions.zipIdx.map Prod.fst).map fun tp => ((spread partitions share)[tp]?).getD 0 := by
        rw [zipIdx_map_fst]
      _ = partitions.zipIdx.map fun (tp,i) => share i tp := by
        rw [map_map]
        apply map_congr_left
        intro place mem
        simp [spread_getElem? distinct mem]
  rw [lookups,← places]
  exact keys.map _

end Spread

section Shares
variable (budget roundRobin : Nat) (partitions : List TopicPartition) (lag : PartitionMap Nat)

def lagOf (tp : TopicPartition) : Nat := lag[tp]?.getD 1

def totalLag : Nat := (partitions.map (lagOf lag)).sum

def floorShare (tp : TopicPartition) : Nat :=
  if 0 < totalLag partitions lag
  then 1 + (budget - partitions.length) * lagOf lag tp / totalLag partitions lag else 1

def leftOver : Nat :=
  if 0 < totalLag partitions lag then budget - (partitions.map (floorShare budget partitions lag)).sum
  else budget - partitions.length

def windowShare (i : Nat) : Nat :=
  if rotated partitions.length (roundRobin % partitions.length) i < budget then 1 else 0

def fullShare (i : Nat) (tp : TopicPartition) : Nat :=
  floorShare budget partitions lag tp + leftOver budget partitions lag / partitions.length +
    if rotated partitions.length (roundRobin % partitions.length) i <
      leftOver budget partitions lag % partitions.length then 1 else 0

variable {budget roundRobin partitions lag}

lemma partitionBudgets_window (limited : options.maxOffsetsPerTrigger = some budget)
    (few : budget < partitions.length) :
    KafkaSource.partitionBudgets options roundRobin partitions lag =
      spread partitions fun i _ => windowShare budget roundRobin partitions i := by
  unfold KafkaSource.partitionBudgets
  simp only [limited]
  rw [if_neg (by omega),if_pos few]
  rfl

lemma partitionBudgets_full (limited : options.maxOffsetsPerTrigger = some budget)
    (some : partitions ≠ []) (enough : partitions.length ≤ budget) :
    KafkaSource.partitionBudgets options roundRobin partitions lag =
      spread partitions (fullShare budget roundRobin partitions lag) := by
  unfold KafkaSource.partitionBudgets
  simp only [limited]
  rw [if_neg (by simpa using some),if_neg (by omega)]
  rfl

lemma sum_zipIdx (value : Nat → Nat) :
    (partitions.zipIdx.map fun place => value place.2).sum = ((List.range partitions.length).map value).sum := by
  have places : partitions.zipIdx.map Prod.snd = List.range partitions.length := by
    rw [zipIdx_map_snd,range_eq_range']
  rw [← places,map_map]
  rfl

lemma sum_zipIdx_fst (value : TopicPartition → Nat) :
    (partitions.zipIdx.map fun place => value place.1).sum = (partitions.map value).sum := by
  have items : (partitions.zipIdx.map Prod.fst).map value = partitions.map value := by rw [zipIdx_map_fst]
  rw [← items,map_map]
  rfl

lemma sum_places (fits : size ≤ partitions.length) :
    (partitions.zipIdx.map fun place =>
        if rotated partitions.length (roundRobin % partitions.length) place.2 < size then 1 else 0).sum = size := by
  rw [sum_zipIdx fun i => if rotated partitions.length (roundRobin % partitions.length) i < size
    then 1 else 0]
  apply sum_window fits
  · intro i inside
    exact rotated_lt inside
  · intro i inside j inside'
    exact rotated_place_inj inside inside' (Nat.mod_lt _ (by omega))

lemma floorShare_pos (tp) : 1 ≤ floorShare budget partitions lag tp := by
  unfold floorShare
  split
  · exact Nat.le_add_right 1 _
  · exact Nat.le_refl 1

lemma sum_floorShare_caught (caught : ¬ 0 < totalLag partitions lag) :
    (partitions.map (floorShare budget partitions lag)).sum = partitions.length := by
  have floor : floorShare budget partitions lag = fun _ => 1 := funext fun tp => if_neg caught
  rw [floor,map_const',sum_replicate_nat,Nat.mul_one]

lemma sum_floorShare_le (enough : partitions.length ≤ budget) :
    (partitions.map (floorShare budget partitions lag)).sum ≤ budget := by
  by_cases waiting : 0 < totalLag partitions lag
  · have floors : (partitions.map (floorShare budget partitions lag)).sum = partitions.length +
        (partitions.map fun tp => (budget - partitions.length) * lagOf lag tp / totalLag partitions lag).sum := by
      have floor : floorShare budget partitions lag = fun tp =>
          1 + (budget - partitions.length) * lagOf lag tp / totalLag partitions lag :=
        funext fun tp => if_pos waiting
      rw [floor,sum_map_add,map_const',sum_replicate_nat,Nat.mul_one]
    have parts := sum_proportional_le (budget - partitions.length) partitions waiting
    change (partitions.map fun tp => (budget - partitions.length) * lagOf lag tp /
      totalLag partitions lag).sum ≤ _ at parts
    omega
  · rw [sum_floorShare_caught waiting]
    exact enough

lemma sum_fullShare (some : partitions ≠ []) (enough : partitions.length ≤ budget) :
    (partitions.zipIdx.map fun place => fullShare budget roundRobin partitions lag place.2 place.1).sum =
      budget := by
  have positive : 0 < partitions.length := length_pos_of_ne_nil some
  simp only [fullShare,sum_map_add]
  rw [sum_zipIdx_fst,sum_places (Nat.mod_lt _ positive).le,map_const',sum_replicate_nat,
    length_zipIdx,add_assoc,Nat.div_add_mod]
  have floors := @sum_floorShare_le _ _ lag enough
  unfold leftOver
  split
  · omega
  · next caught =>
    rw [sum_floorShare_caught caught]
    omega

end Shares

section Exact
open Unsigned
variable {budget roundRobin : Nat} {partitions : List TopicPartition} {lag : PartitionMap Nat}

lemma rotatedWord_eq (sized : len < 2^63) (inside : i < len) (starts : start < len) :
    rotatedWord len start i = some (rotated len start i) := by
  unfold rotatedWord
  rw [add_eq (by omega)]
  simp [sub_eq (show start ≤ i + len by omega),rotated]

lemma budgetWindow_eq (sized : partitions.length < 2^63) :
    budgetWindow budget roundRobin partitions =
      some (spread partitions fun i _ => windowShare budget roundRobin partitions i) := by
  apply foldlM_eq_some
  intro place mem shares
  have inside : place.2 < partitions.length := by
    have := mem_zipIdx mem
    omega
  dsimp only
  rw [rotatedWord_eq sized inside (Nat.mod_lt _ (by omega))]
  rfl

lemma seeded_eq (distinct : partitions.Nodup) :
    partitions.foldl (fun shares tp => shares.insert tp 1) ∅ = spread partitions fun _ _ => 1 := by
  have seeds := foldl_insert_getElem? id (fun _ => 1) partitions (by simpa using distinct) ∅
  apply eq_spread distinct
  · intro tp i place
    exact seeds.1 tp (by rw [← zipIdx_map_fst 0 partitions]; exact mem_map_of_mem place)
  · intro tp absent
    exact (seeds.2 tp (by simpa using absent)).trans Std.ExtTreeMap.getElem?_empty

lemma mem_of_place (place : (tp,i) ∈ partitions.zipIdx) : tp ∈ partitions := by
  rw [← zipIdx_map_fst 0 partitions]
  exact mem_map_of_mem place

lemma proportion_le (mem : tp ∈ partitions) :
    (budget - partitions.length) * lagOf lag tp / totalLag partitions lag ≤ budget - partitions.length := by
  have part : lagOf lag tp ≤ totalLag partitions lag :=
    le_sum_of_mem (mem_map_of_mem mem)
  apply Nat.div_le_of_le_mul
  rw [mul_comm]
  exact Nat.mul_le_mul_right _ part

section Words
variable (distinct : partitions.Nodup) (some' : partitions ≠ []) (sized : partitions.length < 2^63)
  (wide : budget < 2^64) (lags : ∀ tp, lagOf lag tp < 2^64) (enough : partitions.length ≤ budget)
include distinct some' wide lags enough

lemma proportionalShares_eq (waiting : 0 < totalLag partitions lag) :
    proportionalShares budget (budget - partitions.length) partitions (lagOf lag) (totalLag partitions lag)
      (spread partitions fun _ _ => 1) =
      some (spread partitions fun _ tp => floorShare budget partitions lag tp, leftOver budget partitions lag) := by
  have positive : 0 < partitions.length := length_pos_of_ne_nil some'
  obtain ⟨after,done,inside,outside⟩ := foldlM_grow id (fun _ => 1)
    (fun tp => (budget - partitions.length) * lagOf lag tp / totalLag partitions lag) partitions
    (by simpa using distinct)
    (fun shares tp => do
      let share ← fits 64 ((← mul 128 (budget - partitions.length) (lagOf lag tp)) /
        totalLag partitions lag)
      grow shares tp share)
    (fun tp mem shares => by
      have product : (budget - partitions.length) * lagOf lag tp < 2^128 :=
        calc (budget - partitions.length) * lagOf lag tp
          _ ≤ 2^64 * lagOf lag tp := Nat.mul_le_mul_right _ (by omega)
          _ < 2^64 * 2^64 := Nat.mul_lt_mul_of_pos_left (lags tp) (by decide)
          _ = 2^128 := by decide
      have part := @proportion_le budget _ lag tp mem
      simp [mul_eq product,fits_eq (show (budget - partitions.length) * lagOf lag tp /
        totalLag partitions lag < 2^64 by omega)])
    (spread partitions fun _ _ => 1)
    (fun tp mem => by
      obtain ⟨i,_,place⟩ := exists_place mem
      exact spread_getElem? distinct place)
    (fun tp mem => by
      have part := @proportion_le budget _ lag tp mem
      omega)
  have shares : after = spread partitions fun _ tp => floorShare budget partitions lag tp := by
    apply eq_spread distinct
    · intro tp i place
      rw [floorShare,if_pos waiting]
      exact inside tp (mem_of_place place)
    · intro tp absent
      rw [outside tp (by simpa using absent)]
      exact spread_absent distinct absent
  have assigned : (shareValues after).sum = (partitions.map (floorShare budget partitions lag)).sum := by
    rw [shares,(shareValues_perm distinct).sum_eq]
    exact sum_zipIdx_fst (floorShare budget partitions lag)
  have floors := @sum_floorShare_le _ _ lag enough
  unfold proportionalShares
  rw [done]
  simp only [Option.bind_eq_bind,Option.bind_some]
  rw [sum_eq (by omega),assigned,leftOver,if_pos waiting,shares]
  rfl

omit distinct wide lags in
lemma fullShare_le (place : (tp,i) ∈ partitions.zipIdx) :
    fullShare budget roundRobin partitions lag i tp ≤ budget := by
  have mem := mem_map_of_mem (f := fun place : TopicPartition × Nat =>
    fullShare budget roundRobin partitions lag place.2 place.1) place
  exact (le_sum_of_mem mem).trans_eq (sum_fullShare some' enough)

include sized in
omit lags in
lemma spreadRemainder_eq :
    spreadRemainder roundRobin (leftOver budget partitions lag) partitions
      (spread partitions fun _ tp => floorShare budget partitions lag tp) =
      some (spread partitions (fullShare budget roundRobin partitions lag)) := by
  have starts : roundRobin % partitions.length < partitions.length :=
    Nat.mod_lt _ (length_pos_of_ne_nil some')
  let amount : TopicPartition × Nat → Nat := fun place =>
    leftOver budget partitions lag / partitions.length +
      if rotated partitions.length (roundRobin % partitions.length) place.2 <
        leftOver budget partitions lag % partitions.length then 1 else 0
  have small (place : TopicPartition × Nat) (mem : place ∈ partitions.zipIdx) :
      floorShare budget partitions lag place.1 + amount place < 2^64 := by
    have whole := @fullShare_le budget roundRobin partitions lag some' enough _ _ mem
    rw [fullShare,add_assoc] at whole
    exact lt_of_le_of_lt whole wide
  obtain ⟨after,done,inside,outside⟩ := foldlM_grow Prod.fst
    (fun place => floorShare budget partitions lag place.1) amount partitions.zipIdx
    (zipIdx_distinct distinct)
    (fun shares place => do
      let rotated ← rotatedWord partitions.length (roundRobin % partitions.length) place.2
      grow shares place.1 (← add 64 (leftOver budget partitions lag / partitions.length)
        (if rotated < leftOver budget partitions lag % partitions.length then 1 else 0)))
    (fun place mem shares => by
      have inside : place.2 < partitions.length := by
        have := mem_zipIdx mem
        omega
      have fits := lt_of_le_of_lt (Nat.le_add_left _ _) (small place mem)
      rw [rotatedWord_eq sized inside starts]
      simp only [Option.bind_eq_bind,Option.bind_some]
      rw [add_eq fits]
      rfl)
    (spread partitions fun _ tp => floorShare budget partitions lag tp)
    (fun place mem => spread_getElem? distinct mem) small
  have shares : after = spread partitions (fullShare budget roundRobin partitions lag) := by
    apply eq_spread distinct
    · intro tp i place
      rw [inside (tp,i) place,fullShare,add_assoc]
    · intro tp absent
      rw [outside tp (by rwa [zipIdx_map_fst])]
      exact spread_absent distinct absent
  rw [← shares]
  exact done

end Words

lemma partitionBudgetWords_eq (limited : options.maxOffsetsPerTrigger = some budget)
    (distinct : partitions.Nodup) (some' : partitions ≠ []) (sized : partitions.length < 2^63)
    (wide : budget < 2^64) (lags : ∀ tp, lagOf lag tp < 2^64) :
    partitionBudgetWords budget roundRobin partitions lag =
      some (KafkaSource.partitionBudgets options roundRobin partitions lag) := by
  have positive : 0 < partitions.length := length_pos_of_ne_nil some'
  unfold partitionBudgetWords
  rw [fits_eq (by omega)]
  simp only [Option.bind_eq_bind,Option.bind_some]
  rw [if_neg (by omega)]
  split
  · next few => rw [budgetWindow_eq sized,partitionBudgets_window limited few]
  · next enough =>
    have enough : partitions.length ≤ budget := by omega
    have total : (partitions.map (lagOf lag)).sum < 2^128 :=
      calc (partitions.map (lagOf lag)).sum
        _ ≤ (partitions.map (lagOf lag)).length • 2^64 := by
          apply sum_le_card_nsmul
          intro value mem
          obtain ⟨tp,_,rfl⟩ := mem_map.mp mem
          exact (lags tp).le
        _ < 2^128 := by
          rw [length_map,Nat.nsmul_eq_mul]
          omega
    rw [show (partitions.map fun tp => lag[tp]?.getD 1) = partitions.map (lagOf lag) from rfl,
      sum_eq total,sub_eq enough,seeded_eq distinct]
    simp only [Option.bind_some]
    rw [partitionBudgets_full limited some' enough]
    split
    · next waiting =>
      have parts := proportionalShares_eq distinct some' wide lags enough waiting
      change Option.bind (proportionalShares budget (budget - partitions.length) partitions (lagOf lag)
        (totalLag partitions lag) _) _ = _
      rw [parts]
      exact spreadRemainder_eq distinct some' sized wide enough
    · next caught =>
      have ones : (spread partitions fun _ _ => 1) =
          spread partitions fun _ tp => floorShare budget partitions lag tp := by
        congr 1
        funext _ tp
        exact (if_neg caught).symm
      have left : budget - partitions.length = leftOver budget partitions lag :=
        (if_neg caught).symm
      rw [ones,left]
      exact spreadRemainder_eq distinct some' sized wide enough

def rotation (roundRobin turn : Nat) : Nat := (roundRobin + turn) % 2^64

/-- The counter does not start again from zero within a round, or a round ends where it does. -/
def Unwrapped (roundRobin count : Nat) : Prop := roundRobin + count ≤ 2^64 ∨ count ∣ 2^64

lemma rotation_mod (unwrapped : Unwrapped roundRobin count) (inside : turn < count) :
    rotation roundRobin turn % count = (roundRobin + turn) % count := by
  unfold rotation
  rcases unwrapped with below | divides
  · rw [Nat.mod_eq_of_lt (show roundRobin + turn < 2^64 by omega)]
  · exact Nat.mod_mod_of_dvd _ divides

lemma sum_turns (inside : i < partitions.length) (few : budget < partitions.length)
    (unwrapped : Unwrapped roundRobin partitions.length) :
    ((List.range partitions.length).map fun turn =>
      windowShare budget (rotation roundRobin turn) partitions i).sum = budget := by
  apply sum_window few.le
  · intro turn _
    exact rotated_lt inside
  · intro turn within other within' same
    have starts (turn : Nat) : rotation roundRobin turn % partitions.length < partitions.length :=
      Nat.mod_lt _ (by omega)
    have started := rotated_start_inj inside (starts turn) (starts other) same
    rw [rotation_mod unwrapped within,rotation_mod unwrapped within'] at started
    exact mod_add_inj within within' started

lemma shareValues_of_mem (distinct : partitions.Nodup)
    (mem : value ∈ shareValues (spread partitions share)) : ∃ tp i, share i tp = value := by
  obtain ⟨⟨tp,i⟩,_,same⟩ := mem_map.mp ((shareValues_perm distinct).mem_iff.mp mem)
  exact ⟨tp,i,same⟩

/-- The shares use up the budget and nobody is left out. A slice is shorter than half the address
space. -/
theorem partition_budgets_exact (options : KafkaOptions)
    (limited : options.maxOffsetsPerTrigger = some budget) (wide : budget < 2^64)
    (distinct : partitions.Nodup) (some' : partitions ≠ []) (sized : partitions.length < 2^63)
    (lags : ∀ (tp : TopicPartition) (value : Nat), lag[tp]? = some value → value < 2^64) :
    let budgets := fun roundRobin lag => KafkaSource.partitionBudgets options roundRobin partitions lag
    partitionBudgetWords budget roundRobin partitions lag = some (budgets roundRobin lag) ∧
    (∀ tp, tp ∈ budgets roundRobin lag ↔ tp ∈ partitions) ∧
    (shareValues (budgets roundRobin lag)).sum = budget ∧
    (partitions.length ≤ budget → ∀ share ∈ shareValues (budgets roundRobin lag), 1 ≤ share) ∧
    (budget < partitions.length → (∀ share ∈ shareValues (budgets roundRobin lag), share = 0 ∨ share = 1) ∧
      (Unwrapped roundRobin partitions.length → ∀ lags : Nat → PartitionMap Nat, ∀ tp ∈ partitions,
        ((List.range partitions.length).map fun turn =>
          (budgets (rotation roundRobin turn) (lags turn))[tp]?.getD 0).sum = budget)) := by
  have words : ∀ tp, lagOf lag tp < 2^64 := by
    intro tp
    unfold lagOf
    cases found : lag[tp]? with
    | none => decide
    | some value => exact lags tp value found
  intro budgets
  have members {share : Nat → TopicPartition → Nat} (tp : TopicPartition) :
      tp ∈ spread partitions share ↔ tp ∈ partitions := by
    rw [Std.ExtTreeMap.mem_iff_isSome_getElem?]
    by_cases mem : tp ∈ partitions
    · obtain ⟨i,_,place⟩ := exists_place mem
      simp [spread_getElem? distinct place,mem]
    · simp [spread_absent distinct mem,mem]
  refine ⟨partitionBudgetWords_eq limited distinct some' sized wide words,?_⟩
  by_cases few : budget < partitions.length
  · have window (roundRobin : Nat) (lag : PartitionMap Nat) : budgets roundRobin lag =
        spread partitions fun i _ => windowShare budget roundRobin partitions i :=
      partitionBudgets_window limited few
    rw [window]
    refine ⟨members,?_,fun enough => absurd enough (by omega),fun _ => ⟨?_,?_⟩⟩
    · rw [(shareValues_perm distinct).sum_eq]
      exact sum_places few.le
    · intro share mem
      obtain ⟨_,i,rfl⟩ := shareValues_of_mem distinct mem
      unfold windowShare
      split <;> simp
    · intro unwrapped lags tp mem
      obtain ⟨i,inside,place⟩ := exists_place mem
      rw [← sum_turns inside few unwrapped]
      congr 1
      apply map_congr_left
      intro turn _
      rw [window,spread_getElem? distinct place]
      rfl
  · have full : budgets roundRobin lag = spread partitions (fullShare budget roundRobin partitions lag) :=
      partitionBudgets_full limited some' (by omega)
    rw [full]
    refine ⟨members,?_,?_,fun less => absurd less few⟩
    · rw [(shareValues_perm distinct).sum_eq]
      exact sum_fullShare some' (by omega)
    · intro _ share mem
      obtain ⟨tp,i,rfl⟩ := shareValues_of_mem distinct mem
      rw [fullShare,add_assoc]
      exact Nat.le_add_right_of_le (floorShare_pos tp)

end Exact

namespace Sample

def three : List TopicPartition := [⟨"t",0⟩,⟨"t",1⟩,⟨"t",2⟩]

def limited (budget : Nat) : KafkaOptions where
  brokers := ["broker"]
  topics := ["t"]
  startingOffsets := .earliest
  maxOffsetsPerTrigger := some budget

theorem budget_of_ten : (shareValues (KafkaSource.partitionBudgets (limited 10) 1 three ∅)).sum = 10 :=
  (@partition_budgets_exact 10 1 three ∅ (limited 10) rfl (by decide) (by decide) (by decide)
    (by decide) (fun _ _ found => by simp at found)).2.2.1

/-- Where the counter starts again from zero, one partition is served twice in a round and another
not at all. -/
theorem wrapped_round :
    let served := fun tp => ((List.range 3).map fun turn => (KafkaSource.partitionBudgets (limited 1)
      (rotation (2^64 - 1) turn) three ∅)[(tp : TopicPartition)]?.getD 0).sum
    served ⟨"t",0⟩ = 2 ∧ served ⟨"t",2⟩ = 0 := by
  decide

end Sample
end Oxidant.Kafka
