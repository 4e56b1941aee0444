import Mathlib.Data.Set.Basic
import Oxidant.Lib.Separated
import Oxidant.Lib.Traverse
import Oxidant.Streaming.Source

/-! Which rows the composite key of `dropDuplicates` tells apart. -/
namespace Oxidant.DedupKeys
open Lib Streaming List

def integers : List DataType :=
  [.int32,.int64] ++ ["Int8","Int16","UInt8","UInt16","UInt32","UInt64"].map .other

structure ArrowDisplay (formatter : ArrayFormatter) : Prop where
  text : ∃ display, formatter .utf8 = .ok display ∧ ∀ value, display (.text value) = value
  int : ∀ type ∈ integers, ∃ display, formatter type = .ok display ∧
    ∀ value, display (.int value) = toString value

inductive Holds (contents : Set String) : DataType → Option Scalar → Prop
  | textNull : Holds contents .utf8 none
  | text {value : String} (allowed : value ∈ contents) : Holds contents .utf8 (some (.text value))
  | intNull {type : DataType} (integer : type ∈ integers) : Holds contents type none
  | int {type : DataType} (integer : type ∈ integers) (value : Int) :
    Holds contents type (some (.int value))

def keyTypes (batch : RecordBatch) (keyCols : List Nat) : List DataType :=
  keyCols.map batch.dataType

def keyTuple (keyCols : List Nat) (row : Row) : List (Option Scalar) := keyCols.map row.cell

/-- Rows of batches with equally typed key columns, as many as said, have the same key only if those
columns hold the same. -/
def Distinguishes (formatter : ArrayFormatter) (arity : Nat) (contents : Set String) : Prop :=
  ∀ (batch other : RecordBatch) (keyCols otherCols : List Nat)
    (formatters otherFormatters : List (Row → String)) (row later : Row),
    keyCols.length = arity →
    keyFormatters formatter batch keyCols = .ok formatters →
    keyFormatters formatter other otherCols = .ok otherFormatters →
    keyTypes batch keyCols = keyTypes other otherCols →
    List.Forall₂ (Holds contents) (keyTypes batch keyCols) (keyTuple keyCols row) →
    List.Forall₂ (Holds contents) (keyTypes other otherCols) (keyTuple otherCols later) →
    rowKey formatters row = rowKey otherFormatters later →
    keyTuple keyCols row = keyTuple otherCols later

def separator : Char := '\x1f'

def nullMarker : String := "\x00null"

/-- What the strings of a key's columns may not be. One column is written without a separator; the
border of two stays where it is if a separator only begins a string. -/
structure Plain (arity : Nat) (contents : Set String) : Prop where
  marked : 0 < arity → nullMarker ∉ contents
  begins : 2 ≤ arity → ∀ value ∈ contents, separator ∉ value.toList.tail
  separated : 3 ≤ arity → ∀ value ∈ contents, separator ∉ value.toList

def shown : Option Scalar → String
  | none => nullMarker
  | some (.text value) => value
  | some (.int value) => toString value

lemma repr_isDigit {value : Nat} {letter : Char} (mem : letter ∈ value.repr.toList) : letter.isDigit = true := by
  rw [Nat.repr_eq_ofList_toDigits,String.toList_ofList] at mem
  exact Nat.isDigit_of_mem_toDigits (by decide) (by decide) mem

lemma repr_inj {value other : Nat} (same : value.repr = other.repr) : value = other := by
  have digits : Nat.toDigits 10 value = Nat.toDigits 10 other := by
    have letters := congrArg String.toList same
    rwa [Nat.repr_eq_ofList_toDigits,Nat.repr_eq_ofList_toDigits,String.toList_ofList,
      String.toList_ofList] at letters
  rw [← @Nat.ofDigitChars_ten_toDigits value,digits,Nat.ofDigitChars_ten_toDigits]

lemma toString_chars (value : Int) {letter : Char} (mem : letter ∈ (toString value).toList) :
    letter.isDigit = true ∨ letter = '-' := by
  change letter ∈ value.repr.toList at mem
  rw [Int.repr_eq_if] at mem
  split at mem
  · exact .inl (repr_isDigit mem)
  · rw [String.toList_append,mem_append] at mem
    rcases mem with sign | digit
    · exact .inr (by simpa using sign)
    · exact .inl (repr_isDigit digit)

lemma toString_inj {value other : Int} (same : toString value = toString other) : value = other := by
  -- A sign is no digit, so it stands on both sides or on neither.
  have unsigned (n m : Nat) : n.repr ≠ "-" ++ m.repr := by
    intro same
    have digit : '-'.isDigit = true := @repr_isDigit n _ (by simp [same])
    exact absurd digit (by decide)
  change value.repr = other.repr at same
  rw [Int.repr_eq_if,Int.repr_eq_if] at same
  split at same
  · split at same
    · have parts := repr_inj same
      omega
    · exact absurd same (unsigned _ _)
  · split at same
    · exact absurd same.symm (unsigned _ _)
    · have parts : (-value).toNat.repr = (-other).toNat.repr := by
        have letters := congrArg String.toList same
        rw [String.toList_append,String.toList_append] at letters
        exact String.toList_inj.mp (append_cancel_left letters)
      have parts := repr_inj parts
      omega

lemma shown_unmarked (holds : Holds contents type cell) :
    shown cell ∈ contents ∨ separator ∉ (shown cell).toList := by
  have marker : separator ∉ nullMarker.toList := by decide
  cases holds with
  | textNull => exact .inr marker
  | text allowed => exact .inl allowed
  | intNull => exact .inr marker
  | int _ value =>
    refine .inr fun mem => ?_
    rcases toString_chars value mem with digit | sign
    · exact absurd digit (by decide)
    · exact absurd sign (by decide)

lemma toString_ne_nullMarker (value : Int) : toString value ≠ nullMarker := by
  intro same
  have mem : '\x00' ∈ (toString value).toList := by
    rw [same]
    decide
  rcases toString_chars value mem with digit | sign
  · exact absurd digit (by decide)
  · exact absurd sign (by decide)

lemma shown_inj {contents : Set String} (marked : nullMarker ∉ contents) {type : DataType}
    (holds : Holds contents type cell) (holds' : Holds contents type other) (same : shown cell = shown other) :
    cell = other := by
  have text (integer : DataType.utf8 ∈ integers) : False := absurd integer (by decide)
  cases holds with
  | textNull =>
    cases holds' with
    | textNull => rfl
    | @text value allowed =>
      have marker : value = nullMarker := same.symm
      exact absurd (marker ▸ allowed) marked
    | intNull => rfl
    | int integer => exact (text integer).elim
  | @text value allowed =>
    cases holds' with
    | textNull =>
      have marker : value = nullMarker := same
      exact absurd (marker ▸ allowed) marked
    | @text later _ =>
      have texts : value = later := same
      rw [texts]
    | intNull integer => exact (text integer).elim
    | int integer => exact (text integer).elim
  | intNull integer =>
    cases holds' with
    | textNull => rfl
    | text => exact (text integer).elim
    | intNull => rfl
    | int _ value => exact absurd same.symm (toString_ne_nullMarker value)
  | int integer value =>
    cases holds' with
    | textNull => exact (text integer).elim
    | text => exact (text integer).elim
    | intNull => exact absurd same (toString_ne_nullMarker value)
    | int _ later => rw [toString_inj same]

section Keys
variable (arrow : ArrowDisplay formatter)

lemma rowKey_toList :
    (rowKey formatters row).toList = joined separator (formatters.map fun formatter => (formatter row).toList) := by
  have fold (key : String) : (formatters.foldl (fun key formatter =>
      (if key.isEmpty then key else key.push separator) ++ formatter row) key).toList =
      (formatters.map fun formatter => (formatter row).toList).foldl (fun text item =>
        (if text.isEmpty then text else text ++ [separator]) ++ item) key.toList := by
    induction formatters generalizing key with
    | nil => rfl
    | cons formatter formatters ih =>
      rw [foldl_cons,map_cons,foldl_cons,ih,String.toList_append]
      by_cases empty : key = ""
      · simp [empty]
      · have some : key.toList ≠ [] := by simpa using empty
        simp [empty,some]
  exact fold ""

include arrow in
lemma display_eq (holds : Holds contents type cell) (built : formatter type = .ok display) :
    cell.elim nullMarker display = shown cell := by
  cases holds with
  | textNull => rfl
  | text =>
    obtain ⟨known,made,prints⟩ := arrow.text
    cases made.symm.trans built
    exact prints _
  | intNull => rfl
  | int integer value =>
    obtain ⟨known,made,prints⟩ := arrow.int _ integer
    cases made.symm.trans built
    exact prints value

include arrow in
lemma rowKey_eq (built : keyFormatters formatter batch keyCols = .ok formatters)
    (typed : List.Forall₂ (Holds contents) (keyTypes batch keyCols) (keyTuple keyCols row)) :
    (rowKey formatters row).toList =
      joined separator ((keyTuple keyCols row).map fun cell => (shown cell).toList) := by
  rw [rowKey_toList]
  congr 1
  unfold keyFormatters at built
  rw [mapM_eq_ok] at built
  unfold keyTuple
  induction built with
  | nil => rfl
  | cons first _ ih =>
    obtain ⟨holds,others⟩ := forall₂_cons.mp typed
    rw [map_cons,map_cons,map_cons,ih others]
    split at first
    · next display made =>
      cases first
      rw [← display_eq arrow holds made]
      rfl
    · cases first

lemma tuple_unmarked (typed : List.Forall₂ (Holds contents) types tuple) (cell) (mem : cell ∈ tuple) :
    shown cell ∈ contents ∨ separator ∉ (shown cell).toList := by
  induction typed with
  | nil => cases mem
  | cons holds _ ih =>
    rcases mem_cons.mp mem with rfl | among
    · exact shown_unmarked holds
    · exact ih among

lemma unmarked_shown (apart : ∀ value ∈ contents, separator ∉ value.toList)
    (typed : List.Forall₂ (Holds contents) types tuple) :
    Unmarked separator (tuple.map fun cell => (shown cell).toList) := by
  intro item mem
  obtain ⟨cell,among,rfl⟩ := mem_map.mp mem
  exact (tuple_unmarked typed cell among).elim (apart _) id

lemma tail_shown (begins : ∀ value ∈ contents, separator ∉ value.toList.tail)
    (typed : List.Forall₂ (Holds contents) types tuple) (cell) (mem : cell ∈ tuple) :
    separator ∉ (shown cell).toList.tail :=
  (tuple_unmarked typed cell mem).elim (begins _) fun apart inside => apart (mem_of_mem_tail inside)

lemma tuple_inj (marked : types ≠ [] → nullMarker ∉ contents) (typed : List.Forall₂ (Holds contents) types tuple)
    (typed' : List.Forall₂ (Holds contents) types other)
    (same : tuple.map (fun cell => (shown cell).toList) = other.map fun cell => (shown cell).toList) :
    tuple = other := by
  induction typed generalizing other with
  | nil =>
    cases typed'
    rfl
  | cons holds _ ih =>
    have marked := marked (cons_ne_nil _ _)
    cases typed' with
    | cons holds' others =>
      rw [map_cons,map_cons,List.cons.injEq] at same
      obtain ⟨heads,tails⟩ := same
      rw [shown_inj marked holds holds' (String.toList_inj.mp heads),ih (fun _ => marked) others tails]

lemma texts_inj (plain : Plain tuple.length contents) (typed : List.Forall₂ (Holds contents) types tuple)
    (typed' : List.Forall₂ (Holds contents) types other)
    (same : joined separator (tuple.map fun cell => (shown cell).toList) =
        joined separator (other.map fun cell => (shown cell).toList)) :
    tuple.map (fun cell => (shown cell).toList) = other.map fun cell => (shown cell).toList := by
  have lengths := typed.length_eq.symm.trans typed'.length_eq
  match tuple,other,lengths with
  | [],[],_ => rfl
  | [one],[later],_ => simpa [joined] using same
  | [one,two],[later,last],_ =>
    have apart := tail_shown (plain.begins le_rfl) typed
    have apart' := tail_shown (plain.begins le_rfl) typed'
    obtain ⟨firsts,seconds⟩ := joined_pair_inj (apart one (by simp)) (apart two (by simp)) (apart' later (by simp))
      (apart' last (by simp)) same
    simp only [map_cons,map_nil,firsts,seconds]
  | _::_::_::_,_,lengths =>
    have apart := plain.separated (by simp)
    exact joined_inj (unmarked_shown apart typed) (unmarked_shown apart typed') (by simpa using lengths) same

include arrow in
lemma distinguishes_of_plain (plain : Plain arity contents) : Distinguishes formatter arity contents := by
  intro batch other keyCols otherCols formatters otherFormatters row later count built built' types typed typed' same
  have texts := congrArg String.toList same
  rw [rowKey_eq arrow built typed,rowKey_eq arrow built' typed'] at texts
  rw [← types] at typed'
  have arity_eq : (keyTuple keyCols row).length = arity := (length_map _).trans count
  refine tuple_inj (fun some => plain.marked ?_) typed typed' (texts_inj (arity_eq ▸ plain) typed typed' texts)
  rw [← arity_eq,← typed.length_eq]
  exact length_pos_of_ne_nil some

def textColumns (count : Nat) : RecordBatch := ⟨List.replicate count ⟨"",.utf8⟩,[]⟩

def textRow (values : List (Option String)) : Row := values.map (·.map .text)

lemma keyTypes_textColumns (count) :
    keyTypes (textColumns count) (List.range count) = List.replicate count .utf8 := by
  apply ext_getElem
  · simp [keyTypes]
  · intro index inside _
    have below : index < count := by simpa [keyTypes] using inside
    simp [keyTypes,textColumns,RecordBatch.dataType,below]

lemma keyTuple_textRow : keyTuple (List.range values.length) (textRow values) = textRow values := by
  apply ext_getElem
  · simp [keyTuple,textRow]
  · intro index inside _
    have below : index < values.length := by simpa [keyTuple] using inside
    simp [keyTuple,textRow,Row.cell,below]

lemma textRow_typed (allowed : ∀ value, some value ∈ values → value ∈ contents) :
    List.Forall₂ (Holds contents) (List.replicate values.length .utf8) (textRow values) := by
  induction values with
  | nil => exact .nil
  | cons value values ih =>
    refine .cons ?_ (ih fun other mem => allowed other (mem_cons_of_mem _ mem))
    cases value with
    | none => exact .textNull
    | some value => exact .text (allowed value mem_cons_self)

include arrow in
lemma textRow_distinguished {values others : List (Option String)}
    (distinguishes : Distinguishes formatter values.length contents) (lengths : values.length = others.length)
    (allowed : ∀ value, some value ∈ values ++ others → value ∈ contents)
    (same : joined separator ((textRow values).map fun cell => (shown cell).toList) =
        joined separator ((textRow others).map fun cell => (shown cell).toList)) :
    values = others := by
  obtain ⟨formatters,built⟩ : ∃ formatters,
      keyFormatters formatter (textColumns values.length) (List.range values.length) = .ok formatters := by
    apply exists_mapM_eq_ok
    intro index mem
    have type : (textColumns values.length).dataType index = .utf8 := by
      simp [textColumns,RecordBatch.dataType,mem_range.mp mem]
    obtain ⟨display,made,_⟩ := arrow.text
    simp [type,made]
  have typed := textRow_typed fun value mem => allowed value (mem_append_left _ mem)
  have typed' := textRow_typed fun value mem => allowed value (mem_append_right _ mem)
  rw [← keyTypes_textColumns,← keyTuple_textRow] at typed
  rw [← keyTypes_textColumns,← keyTuple_textRow,← lengths] at typed'
  have told := distinguishes _ _ _ _ formatters formatters _ _ length_range built built rfl typed typed'
  rw [← String.toList_inj,rowKey_eq arrow built typed,rowKey_eq arrow built typed'] at told
  rw [keyTuple_textRow,lengths,keyTuple_textRow] at told
  exact map_injective_iff.mpr (Option.map_injective fun _ _ => Scalar.text.inj) (told same)

include arrow in
/-- Columns of nulls after those that are confused bring a key to any number of columns. -/
lemma padded_distinguished (distinguishes : Distinguishes formatter arity contents)
    (values others : List (Option String)) (room : values.length ≤ arity) (lengths : values.length = others.length)
    (allowed : ∀ value, some value ∈ values ++ others → value ∈ contents)
    (same : joined separator ((textRow values).map fun cell => (shown cell).toList) =
        joined separator ((textRow others).map fun cell => (shown cell).toList)) :
    values = others := by
  have told : values ++ List.replicate (arity - values.length) none =
      others ++ List.replicate (arity - values.length) none := by
    apply textRow_distinguished arrow
    · simpa [room] using distinguishes
    · simp [lengths]
    · exact fun value mem => allowed value (by simpa using mem)
    · unfold textRow at same ⊢
      rw [map_append,map_append,map_append,map_append]
      exact joined_append same _
  exact append_cancel_right told

def InfixClosed (contents : Set String) : Prop :=
  ∀ value ∈ contents, ∀ part : String, part.toList <:+: value.toList → part ∈ contents

include arrow in
lemma marked_of_distinguishes (distinguishes : Distinguishes formatter arity contents) (some_ : 0 < arity) :
    nullMarker ∉ contents := by
  intro marker
  have told := padded_distinguished arrow distinguishes [none] [some nullMarker] some_ rfl
    (fun value mem => by simp_all) rfl
  simp at told

include arrow in
lemma plain_of_distinguishes (closed : InfixClosed contents) (distinguishes : Distinguishes formatter arity contents) :
    Plain arity contents where
  marked := marked_of_distinguishes arrow distinguishes
  begins two value allowed mem := by
    obtain ⟨before,after,split⟩ := append_of_mem mem
    obtain ⟨letter,rest,letters⟩ := exists_cons_of_ne_nil (fun empty => by simp [empty] at mem : value.toList ≠ [])
    rw [letters,tail_cons] at split
    have part (text : List Char) (inside : text <:+: value.toList) : String.ofList text ∈ contents :=
      closed value allowed _ (by simpa using inside)
    have head : String.ofList (letter::before) ∈ contents := part _ ⟨[],separator::after,by simp [letters,split]⟩
    have ended : String.ofList (letter::before ++ [separator]) ∈ contents := part _ ⟨[],after,by simp [letters,split]⟩
    have mark : String.ofList [separator] ∈ contents := part _ ⟨letter::before,after,by simp [letters,split]⟩
    have empty : String.ofList [] ∈ contents := part _ nil_infix
    -- The separator ends the first string or is the second.
    have told := padded_distinguished arrow distinguishes
      [some (String.ofList (letter::before ++ [separator])),some (String.ofList [])]
      [some (String.ofList (letter::before)),some (String.ofList [separator])] two rfl
      (by
        intro value mem
        simp only [cons_append,nil_append,mem_cons,Option.some.injEq,not_mem_nil,or_false] at mem
        rcases mem with rfl | rfl | rfl | rfl <;> assumption)
      (by simp [textRow,shown,joined])
    simp at told
  separated three value allowed mem := by
    obtain ⟨before,after,split⟩ := append_of_mem mem
    have mark : String.singleton separator ∈ contents := by
      apply closed value allowed
      rw [split]
      exact ⟨before,after,by simp⟩
    have empty : "" ∈ contents := closed value allowed "" nil_infix
    -- An empty string between two separators, and after them.
    have told := padded_distinguished arrow distinguishes
      [some (String.singleton separator),some (String.singleton separator),some ""]
      [some (String.singleton separator),some "",some (String.singleton separator)] three rfl
      (by
        intro value mem
        simp only [cons_append,nil_append,mem_cons,Option.some.injEq,not_mem_nil,or_false] at mem
        rcases mem with rfl | rfl | rfl | rfl | rfl | rfl <;> assumption)
      (by simp [textRow,shown,joined])
    simp at told

include arrow in
/-- The key of so many columns tells rows apart if their strings are plain, and in no other case where
strings are closed under taking parts. For one column they need not be. -/
theorem row_key_injective (arity : Nat) (contents : Set String) :
    (Plain arity contents → Distinguishes formatter arity contents) ∧
      (arity ≤ 1 ∨ InfixClosed contents → (Distinguishes formatter arity contents ↔ Plain arity contents)) := by
  refine ⟨distinguishes_of_plain arrow,fun closed => ⟨fun distinguishes => ?_,distinguishes_of_plain arrow⟩⟩
  rcases closed with single | closed
  · exact ⟨marked_of_distinguishes arrow distinguishes,fun two => by omega,fun three => by omega⟩
  · exact plain_of_distinguishes arrow closed distinguishes

end Keys

namespace Sample

def arrowDisplay : ArrayFormatter := fun _ => .ok fun
  | .text value => value
  | .int value => toString value

lemma arrowDisplay_prints : ArrowDisplay arrowDisplay where
  text := ⟨_,rfl,fun _ => rfl⟩
  int := fun _ _ => ⟨_,rfl,fun _ => rfl⟩

def words : Set String := {value | value.toList.all Char.isAlphanum = true}

lemma words_plain (arity) : Plain arity words := by
  have apart (value) (word : value ∈ words) : separator ∉ value.toList := fun mem =>
    absurd (all_eq_true.mp word _ mem) (by decide)
  refine ⟨fun _ word => ?_,fun _ value word mem => apart value word (mem_of_mem_tail mem),fun _ => apart⟩
  have alphanumeric : nullMarker.toList.all Char.isAlphanum = true := word
  exact absurd alphanumeric (by decide)

theorem words_told_apart : Plain 3 words ∧ Distinguishes arrowDisplay 3 words :=
  ⟨words_plain 3,(row_key_injective arrowDisplay_prints 3 words).1 (words_plain 3)⟩

/-- A separator inside a string moves the border between two columns, and a null reads like its
marker. -/
theorem separators_confused :
    ∃ formatters one, keyFormatters arrowDisplay (textColumns 2) [0,1] = .ok formatters ∧
      keyFormatters arrowDisplay (textColumns 1) [0] = .ok one ∧
      rowKey formatters (textRow [some "a\x1fb",some "c"]) = rowKey formatters (textRow [some "a",some "b\x1fc"]) ∧
      rowKey one (textRow [none]) = rowKey one (textRow [some "\x00null"]) ∧
      ∀ arity, 0 < arity → ¬ Distinguishes arrowDisplay arity Set.univ := by
  refine ⟨_,_,rfl,rfl,by decide,by decide,fun arity some distinguishes => ?_⟩
  exact marked_of_distinguishes arrowDisplay_prints distinguishes some trivial

end Sample
end Oxidant.DedupKeys
