import Mathlib.Data.List.Basic
import Oxidant.Delta.Writer

/-! Where a partitioned data file is put, and where a reader of its add action looks for it. A key
is the list of its path segments, in UTF-8. -/
namespace Oxidant.Delta
open List

def utf8 (text : List Char) : List UInt8 := text.flatMap String.utf8EncodeChar

/-- The bytes that the object store encodes in a path segment. -/
structure SegmentRules where
  invalid : UInt8 → Bool
  percent : invalid 37 = true
  delimiter : invalid 47 = true
  equals : invalid 61 = false

variable (rules : SegmentRules)

def SegmentRules.encode (segment : List UInt8) : List UInt8 :=
  segment.flatMap fun b =>
    if rules.invalid b then
      [37,(hexDigit (b.toNat / 16)).toUInt8,(hexDigit (b.toNat % 16)).toUInt8]
    else [b]

/-- `object_path_join`, whose joins encode each segment. -/
def writtenKey (root : List (List UInt8)) (relative : String) : List (List UInt8) :=
  root ++ ((relative.toList.splitOn '/').filter (· ≠ [])).map fun part => rules.encode (utf8 part)

def hexValue (b : UInt8) : Option Nat :=
  if 48 ≤ b ∧ b ≤ 57 then some (b.toNat - 48)
  else if 65 ≤ b ∧ b ≤ 70 then some (b.toNat - 55)
  else if 97 ≤ b ∧ b ≤ 102 then some (b.toNat - 87)
  else none

def percentDecode : List UInt8 → List UInt8
  | 37::high::low::rest => match hexValue high,hexValue low with
    | some h,some l => UInt8.ofNat (16 * h + l)::percentDecode rest
    | _,_ => 37::percentDecode (high::low::rest)
  | b::rest => b::percentDecode rest
  | [] => []

/-- The key that the path of an add action names, once decoded, below the table's root. -/
def readKey (root : List (List UInt8)) (path : String) : List (List UInt8) :=
  root ++ (percentDecode (utf8 path.toList)).splitOn 47

def SegmentRules.Plain (text : List Char) : Prop := ∀ b ∈ utf8 text, rules.invalid b = false

instance (text : List Char) : Decidable (rules.Plain text) :=
  inferInstanceAs (Decidable (∀ b ∈ utf8 text, rules.invalid b = false))

lemma length_percentDecode (bytes) : (percentDecode bytes).length ≤ bytes.length := by
  fun_induction percentDecode bytes with
  | case1 high low rest h l _ _ ih =>
    simp only [length_cons]
    omega
  | case2 high low rest _ ih => exact Nat.succ_le_succ ih
  | case3 b rest _ ih => exact Nat.succ_le_succ ih
  | case4 => exact le_rfl

lemma percentDecode_eq (plain : 37 ∉ bytes) : percentDecode bytes = bytes := by
  fun_induction percentDecode bytes with
  | case1 => simp at plain
  | case2 => simp at plain
  | case3 b rest _ ih => rw [ih fun member => plain (mem_cons_of_mem _ member)]
  | case4 => rfl

lemma length_encode {segment} :
    (rules.encode segment).length = segment.length + 2 * segment.countP rules.invalid := by
  induction segment with
  | nil => rfl
  | cons b rest ih =>
    rw [SegmentRules.encode,flatMap_cons,length_append,← SegmentRules.encode,ih,countP_cons]
    split <;> simp +arith

variable {rules}

lemma encode_eq {segment} (plain : ∀ b ∈ segment, rules.invalid b = false) : rules.encode segment = segment := by
  induction segment with
  | nil => rfl
  | cons b rest ih =>
    rw [SegmentRules.encode,flatMap_cons,plain b mem_cons_self,← SegmentRules.encode,
      ih fun other member => plain other (mem_cons_of_mem _ member)]
    rfl

lemma length_intercalate :
    ([separator].intercalate parts).length = (parts.map List.length).sum + (parts.length - 1) := by
  induction parts with
  | nil => rfl
  | cons part rest ih => cases rest with
    | nil => simp
    | cons next rest =>
      rw [intercalate_cons_cons,length_append,ih]
      simp +arith

lemma notMem_intercalate (apart : item ≠ separator) (clear : ∀ part ∈ parts, item ∉ part) :
    item ∉ [separator].intercalate parts := by
  induction parts with
  | nil => exact not_mem_nil
  | cons part rest ih => cases rest with
    | nil => simpa using clear
    | cons next rest => simp [apart,clear part,ih fun other member => clear other (mem_cons_of_mem _ member)]

lemma utf8_intercalate : utf8 (['/'].intercalate parts) = [47].intercalate (parts.map utf8) := by
  induction parts with
  | nil => rfl
  | cons part rest ih => cases rest with
    | nil => simp [utf8]
    | cons next rest =>
      rw [intercalate_cons_cons,utf8,flatMap_append,flatMap_append,← utf8,← utf8,← utf8,ih]
      exact intercalate_cons_cons.symm

lemma length_encoded (parts : List (List Char)) :
    ([47].intercalate (parts.map fun part => rules.encode (utf8 part))).length =
      ([47].intercalate (parts.map utf8)).length +
        2 * (parts.map fun part => (utf8 part).countP rules.invalid).sum := by
  simp only [length_intercalate,map_map,length_map]
  induction parts with
  | nil => rfl
  | cons part rest ih =>
    simp only [map_cons,sum_cons,Function.comp_apply,length_encode]
    omega

lemma keys_agree_iff (joined : relative.toList = ['/'].intercalate parts) (some_ : parts ≠ [])
    (each : ∀ part ∈ parts, part ≠ [] ∧ '/' ∉ part) :
    writtenKey rules root relative = readKey root relative ↔ ∀ part ∈ parts, rules.Plain part := by
  have split : (relative.toList.splitOn '/').filter (· ≠ []) = parts := by
    rw [joined,splitOn_intercalate _ (fun part member => (each part member).2) some_]
    exact filter_eq_self.mpr fun part member => decide_eq_true (each part member).1
  rw [writtenKey,readKey,split,append_cancel_left_eq,joined,utf8_intercalate]
  constructor
  · -- Encoding lengthens exactly the parts that are not plain, and decoding lengthens nothing.
    intro same part member b inside
    have shorter := length_percentDecode ([47].intercalate (parts.map utf8))
    have whole := congrArg [47].intercalate same
    rw [intercalate_splitOn] at whole
    rw [← whole,length_encoded] at shorter
    have zero : (parts.map fun part => (utf8 part).countP rules.invalid).sum = 0 := by omega
    have none := List.sum_eq_zero_iff_forall_eq_nat.mp zero _ (List.mem_map_of_mem member)
    exact Bool.eq_false_of_not_eq_true (countP_eq_zero.mp none b inside)
  · intro plain
    have kept : (parts.map fun part => rules.encode (utf8 part)) = parts.map utf8 :=
      map_congr_left fun part member => encode_eq (plain part member)
    have clear (b : UInt8) (invalid : rules.invalid b = true) : ∀ part ∈ parts.map utf8, b ∉ part := by
      intro part member inside
      obtain ⟨text,listed,rfl⟩ := mem_map.mp member
      rw [plain text listed b inside] at invalid
      cases invalid
    rw [kept,percentDecode_eq,splitOn_intercalate _ (clear 47 rules.delimiter) (by simpa using some_)]
    exact notMem_intercalate (by decide) (clear 37 rules.percent)

lemma plain_escapePartition :
    rules.Plain (escapePartition text).toList ↔ escapePartition text = text ∧ rules.Plain text.toList := by
  constructor
  · intro plain
    have kept : ∀ c ∈ text.toList, (if "/=: %\\?#[]".toList.contains c then
        ['%',hexDigit (c.toNat / 16),hexDigit (c.toNat % 16)] else [c]) = [c] := by
      intro c member
      split
      · next special =>
        have percent : '%' ∈ (escapePartition text).toList := by
          rw [escapePartition,String.toList_ofList]
          exact mem_flatMap.mpr ⟨c,member,by rw [if_pos special]; exact mem_cons_self⟩
        have never := plain 37 (mem_flatMap.mpr ⟨'%',percent,by decide⟩)
        rw [rules.percent] at never
        cases never
      · rfl
    have same : escapePartition text = text := by
      rw [escapePartition,flatMap_congr kept]
      simp
    exact ⟨same,same ▸ plain⟩
  · intro ⟨same,plain⟩
    rwa [same]

lemma slash_notMem_escape : '/' ∉ (escapePartition text).toList := by
  have specials : "/=: %\\?#[]".toList.all (fun c =>
      !(['%',hexDigit (c.toNat / 16),hexDigit (c.toNat % 16)].contains '/')) = true := by
    decide
  simp only [escapePartition,String.toList_ofList,mem_flatMap,not_exists,not_and]
  intro c _
  split
  · next special => simpa using all_eq_true.mp specials c (contains_iff_mem.mp special)
  · next special =>
    rw [mem_singleton]
    rintro rfl
    exact special (by decide)

lemma intercalate_concat (last : List α) (some_ : parts ≠ []) :
    separator.intercalate (parts ++ [last]) = separator.intercalate parts ++ separator ++ last := by
  induction parts with
  | nil => exact absurd rfl some_
  | cons part rest ih => cases rest with
    | nil => simp
    | cons next rest =>
      rw [intercalate_cons_cons,cons_append,cons_append,intercalate_cons_cons,← cons_append,ih (cons_ne_nil _ _)]
      simp

def dataFileName (writer : DeltaTableWriter) (filePrefix : String) (index : Nat) : String :=
  let counter := padded 5 writer.fileCounter
  s!"part-{counter}-{filePrefix}-{index}-c000.snappy.parquet"

def partitionPart (group : PartitionGroup) (column : String) : List Char :=
  (escapePartition column ++ "=" ++ escapePartition (group.partitionValues[column]?.getD nullPartition)).toList

lemma filePath_parts :
    (writer.filePath filePrefix index group).toList =
      ['/'].intercalate (writer.config.partitionColumns.map (partitionPart group) ++
          [(dataFileName writer filePrefix index).toList]) := by
  have named : writer.filePath filePrefix index group =
      (partitionDir group.partitionValues writer.config.partitionColumns).elim
        (dataFileName writer filePrefix index) fun dir => dir ++ "/" ++ dataFileName writer filePrefix index := rfl
  rw [named,partitionDir]
  cases listed : writer.config.partitionColumns with
  | nil => simp
  | cons column columns =>
    rw [if_neg (by simp),intercalate_concat _ (by simp),Option.elim_some,String.toList_append,
      String.toList_append,String.toList_intercalate,map_map]
    rfl

/-- The keys agree exactly if neither the escaping nor the store changes a column name or a value. -/
theorem partition_keys_agree (root : List (List UInt8)) (writer : DeltaTableWriter)
    (filePrefix : String) (index : Nat) (group : PartitionGroup)
    (named : rules.Plain (dataFileName writer filePrefix index).toList) :
    writtenKey rules root (writer.filePath filePrefix index group) =
        readKey root (writer.filePath filePrefix index group) ↔
      ∀ column ∈ writer.config.partitionColumns, ∀ text ∈ [column,group.partitionValues[column]?.getD nullPartition],
          escapePartition text = text ∧ rules.Plain text.toList := by
  have slashes {text : List Char} (plain : rules.Plain text) : '/' ∉ text := by
    intro member
    have never := plain 47 (mem_flatMap.mpr ⟨'/',member,by decide⟩)
    rw [rules.delimiter] at never
    cases never
  rw [keys_agree_iff (filePath_parts) (by simp)]
  · have split (column : String) : rules.Plain (partitionPart group column) ↔
        ∀ text ∈ [column,group.partitionValues[column]?.getD nullPartition],
          escapePartition text = text ∧ rules.Plain text.toList := by
      have equals : String.utf8EncodeChar '=' = [61] := by decide
      simp only [forall_mem_cons,← plain_escapePartition]
      simp [partitionPart,SegmentRules.Plain,utf8,equals,rules.equals,or_imp,forall_and]
    simp only [forall_mem_append,forall_mem_map,split,forall_mem_singleton,named,and_true]
  · intro part member
    rcases mem_append.mp member with dir | last
    · obtain ⟨column,_,rfl⟩ := mem_map.mp dir
      simp [partitionPart,slash_notMem_escape]
    · rw [mem_singleton.mp last]
      exact ⟨by simp [dataFileName],slashes named⟩

namespace Sample

def segments : SegmentRules where
  invalid b := b = 37 || b = 47 || 128 ≤ b
  percent := rfl
  delimiter := rfl
  equals := rfl

def byDay (day : String) : PartitionGroup where
  partitionValues := {("day",day)}
  numRecords := 1
  size := 1
  allocated := by decide

def writer : DeltaTableWriter where
  root := "t"
  schemaString := .ok ""
  config := {tableId := "t",partitionColumns := ["day"]}
  nextVersion := 0
  liveFiles := none
  committedTxn := none

theorem dated_keys_agree :
    writtenKey segments [] (writer.filePath "a" 0 (byDay "2024-01-01")) =
      readKey [] (writer.filePath "a" 0 (byDay "2024-01-01")) := by
  apply (partition_keys_agree [] writer "a" 0 (byDay "2024-01-01") _).mpr
  · decide +kernel
  · decide +kernel

/-- A blank is escaped once by the writer, once more by the store, and unescaped once. -/
theorem blank_keys_differ :
    writtenKey segments [] (writer.filePath "a" 0 (byDay "a b")) ≠
      readKey [] (writer.filePath "a" 0 (byDay "a b")) := by
  decide +kernel

end Sample
end Oxidant.Delta
