import Mathlib.Data.List.Lex
import Mathlib.Order.Lattice

/-! Reconciling a source with its target: the joined keys that both sides are ordered by, and the walk
over one window of each. -/
namespace Oxidant.Reconcile
open List

def keySeparator : List Char := ['\x00','\x01']

def keyEscape : List Char := ['\x00','ÿ']

def nullSentinel : List Char := "\x02NULL".toList

def escape (value : List Char) : List Char :=
  value.flatMap fun c => if c = '\x00' then keyEscape else [c]

def encodeKey (parts : List (Option (List Char))) : List Char :=
  keySeparator.intercalate (parts.map fun part => part.elim nullSentinel escape)

def splitKey : List Char → List (List Char)
  | '\x00' :: '\x01' :: rest => []::splitKey rest
  | c::rest => match splitKey rest with
    | part::parts => (c::part)::parts
    | [] => [[c]]
  | [] => [[]]

def unescape : List Char → List Char
  | '\x00' :: 'ÿ' :: rest => '\x00'::unescape rest
  | c::rest => c::unescape rest
  | [] => []

/-- The parts that `show_key` puts side by side. -/
def keyParts (key : List Char) : List (List Char) := (splitKey key).map unescape

def utf8 (text : List Char) : List UInt8 := text.flatMap String.utf8EncodeChar

lemma unescape_escape (value) : unescape (escape value) = value := by
  induction value with
  | nil => rfl
  | cons c value ih =>
    by_cases zero : c = '\x00'
    · subst zero
      simpa [escape,keyEscape,unescape] using ih
    · simpa [escape,zero,unescape] using ih

lemma splitKey_escape (value) (start : splitKey rest = []::parts) :
    splitKey (escape value ++ rest) = escape value::parts := by
  induction value with
  | nil => exact start
  | cons c value ih =>
    by_cases zero : c = '\x00'
    · simp_all [escape,keyEscape,splitKey]
    · simp_all [escape,splitKey]

/-- What follows a part: nothing, or a separator and the other parts. -/
def following : List (List Char) → List Char
  | [] => []
  | part::parts => keySeparator ++ encodeKey ((part::parts).map some)

lemma encodeKey_cons (part parts) : encodeKey ((part::parts).map some) = escape part ++ following parts := by
  cases parts with
  | nil => simp [encodeKey,following]
  | cons next parts => simp [encodeKey,following,intercalate_cons_cons]

lemma splitKey_following (parts) :
    splitKey (following parts) = []::(if parts = [] then [] else splitKey (encodeKey (parts.map some))) := by
  cases parts with
  | nil => rfl
  | cons part parts =>
    rfl

lemma keyParts_encodeKey (some_ : parts ≠ []) : keyParts (encodeKey (parts.map some)) = parts := by
  induction parts with
  | nil => contradiction
  | cons part parts ih =>
    rw [encodeKey_cons,keyParts,splitKey_escape part (splitKey_following parts),map_cons,unescape_escape]
    split
    · next last => rw [last,map_nil]
    · next more => exact congrArg _ (ih more)

lemma ofNat_ne_zero (positive : 0 < k) (small : k < 256) : UInt8.ofNat k ≠ 0 := by
  intro zero
  have value := congrArg UInt8.toNat zero
  rw [UInt8.toNat_ofNat_of_lt' small] at value
  exact positive.ne' value

lemma encodeChar_ne_zero (apart : c ≠ '\x00') : ∀ b ∈ String.utf8EncodeChar c, b ≠ 0 := by
  have positive : 0 < c.val.toNat := by
    apply Nat.pos_of_ne_zero
    intro zero
    exact apart (Char.ext (UInt32.toNat_inj.mp zero))
  intro b mem
  unfold String.utf8EncodeChar at mem
  dsimp only at mem
  split at mem
  · obtain rfl := mem_singleton.mp mem
    exact ofNat_ne_zero positive (by omega)
  · split at mem
    · simp only [mem_cons,not_mem_nil,or_false] at mem
      rcases mem with rfl | rfl <;> exact ofNat_ne_zero (by omega) (by omega)
    · split at mem
      · simp only [mem_cons,not_mem_nil,or_false] at mem
        rcases mem with rfl | rfl | rfl <;> exact ofNat_ne_zero (by omega) (by omega)
      · simp only [mem_cons,not_mem_nil,or_false] at mem
        rcases mem with rfl | rfl | rfl | rfl <;> exact ofNat_ne_zero (by omega) (by omega)

def escapeBytes (bytes : List UInt8) : List UInt8 :=
  bytes.flatMap fun b => if b = 0 then [0,195,191] else [b]

lemma escapeBytes_of_ne_zero (plain : ∀ b ∈ bytes, b ≠ 0) : escapeBytes bytes = bytes := by
  unfold escapeBytes
  rw [flatMap_congr fun b mem => if_neg (plain b mem),flatMap_singleton']

lemma utf8_escape (value) : utf8 (escape value) = escapeBytes (utf8 value) := by
  induction value with
  | nil => rfl
  | cons c value ih =>
    unfold utf8 escapeBytes at ih
    rw [escape,flatMap_cons,utf8,flatMap_append,utf8,flatMap_cons,escapeBytes,flatMap_append,← ih]
    congr 1
    split
    · next zero =>
      subst zero
      decide
    · next apart =>
      rw [flatMap_singleton]
      exact (escapeBytes_of_ne_zero (encodeChar_ne_zero apart)).symm

lemma escapeBytes_cons (x a) : escapeBytes (x::a) = x::((if x = 0 then [195,191] else []) ++ escapeBytes a) := by
  unfold escapeBytes
  rw [flatMap_cons]
  split
  · next zero =>
    rw [zero]
    rfl
  · rfl

/-- What may follow a part: nothing, or a separator. -/
def Ends (bytes : List UInt8) : Prop := bytes = [] ∨ ∃ more, bytes = 0::1::more

/-- A separator comes before every way in which a part can go on. -/
lemma Ends.lt (ends : Ends s) : s < escapeBytes (x::a) ++ t := by
  rw [escapeBytes_cons,cons_append]
  rcases ends with rfl | ⟨more,rfl⟩
  · exact nil_lt_cons _ _
  · rw [cons_lt_cons_iff]
    by_cases zero : x = 0
    · refine .inr ⟨zero.symm,?_⟩
      rw [if_pos zero]
      exact cons_lt_cons_iff.mpr (.inl (by decide))
    · exact .inl (UInt8.pos_iff_ne_zero.mpr zero)

lemma escapeBytes_lt (ends : Ends s) (stops : Ends t) (a b) :
    escapeBytes a ++ s < escapeBytes b ++ t ↔ a < b ∨ a = b ∧ s < t := by
  induction a generalizing b with
  | nil =>
    cases b with
    | nil => simp [escapeBytes]
    | cons y b => exact iff_of_true ends.lt (.inl (nil_lt_cons _ _))
  | cons x a ih =>
    cases b with
    | nil => exact iff_of_false (fun less => List.lt_asymm less stops.lt) (by simp)
    | cons y b =>
      rw [escapeBytes_cons,escapeBytes_cons,cons_append,cons_append,cons_lt_cons_iff,cons_lt_cons_iff]
      by_cases same : x = y
      · subst same
        by_cases zero : x = 0
        · simp [zero,ih]
        · simp [zero,ih]
      · simp [same]

lemma utf8_append (text more) : utf8 (text ++ more) = utf8 text ++ utf8 more := flatMap_append

lemma ends_following (parts) : Ends (utf8 (following parts)) := by
  cases parts with
  | nil => exact .inl rfl
  | cons part parts => exact .inr ⟨_,utf8_append _ _⟩

lemma following_cons (part parts) :
    utf8 (following (part::parts)) = [0,1] ++ utf8 (encodeKey ((part::parts).map some)) := utf8_append _ _

lemma following_lt (others : List (List Char)) (arity : parts.length = others.length) :
    utf8 (following parts) < utf8 (following others) ↔ parts.map utf8 < others.map utf8 := by
  induction parts generalizing others with
  | nil =>
    obtain rfl := length_eq_zero_iff.mp arity.symm
    exact iff_of_false (List.not_lt_nil _) (List.not_lt_nil _)
  | cons part parts ih =>
    obtain ⟨other,others,rfl⟩ := exists_cons_of_length_eq_add_one arity.symm
    have less := escapeBytes_lt (ends_following parts) (ends_following others) (utf8 part) (utf8 other)
    rw [ih others (Nat.succ.inj arity),← utf8_escape,← utf8_escape,← utf8_append,← utf8_append,
      ← encodeKey_cons,← encodeKey_cons] at less
    simpa [following_cons,cons_lt_cons_iff] using less

/-- The joined keys of one arity keep the order of their parts and tell them apart, and the parts of a
key that has any can be read back. -/
theorem encoded_keys_ordered (parts others : List (List Char)) (arity : parts.length = others.length) :
    (utf8 (encodeKey (parts.map some)) < utf8 (encodeKey (others.map some)) ↔ parts.map utf8 < others.map utf8) ∧
    (encodeKey (parts.map some) = encodeKey (others.map some) → parts = others) ∧
    (parts ≠ [] → keyParts (encodeKey (parts.map some)) = parts) := by
  cases parts with
  | nil =>
    obtain rfl := length_eq_zero_iff.mp arity.symm
    exact ⟨iff_of_false (List.lt_irrefl _) (List.lt_irrefl _),fun _ => rfl,nofun⟩
  | cons part parts =>
    obtain ⟨other,others,rfl⟩ := exists_cons_of_length_eq_add_one arity.symm
    refine ⟨?_,fun same => ?_,keyParts_encodeKey⟩
    · rw [← following_lt _ arity,following_cons,following_cons]
      simp
    · rw [← keyParts_encodeKey (cons_ne_nil part parts),same,keyParts_encodeKey (cons_ne_nil _ _)]

theorem prefixes_and_zeros_ordered :
    utf8 (encodeKey [some ['a'],some ['\x01']]) < utf8 (encodeKey [some ['a','\x00'],some []]) ∧
    keyParts (encodeKey [some ['a','\x00'],some []]) = [['a','\x00'],[]] :=
  ⟨(encoded_keys_ordered [['a'],['\x01']] [['a','\x00'],[]] rfl).1.mpr (by decide),
    (encoded_keys_ordered [['a','\x00'],[]] [['a'],['\x01']] rfl).2.2 (by decide)⟩

/-- A key without columns reads back as one empty part. -/
theorem empty_key_has_a_part : keyParts (encodeKey []) ≠ [] := by decide

structure KeyRow (κ : Type) where
  key : κ
  hash : Option Nat

structure KeyWindow (κ : Type) where
  rows : List (KeyRow κ)
  truncated : Bool

structure KeyDiff (κ : Type) where
  compared : Nat := 0
  missingInTarget : List κ := []
  missingInSource : List κ := []
  hashMismatches : List κ := []
  windowEnd : Option κ := none

section
variable {κ : Type} [LinearOrder κ]

/-- Where a truncated window stopped looking. -/
def KeyWindow.readTo (window : KeyWindow κ) : Option κ :=
  if window.truncated then window.rows.getLast?.map KeyRow.key else none

/-- `None` on either side means there was nothing to compare. -/
def KeyRow.differs (row other : KeyRow κ) : Bool :=
  match row.hash,other.hash with
  | some a,some b => a ≠ b
  | _,_ => false

/-- A side that was read to its end bounds nothing. -/
def within (readTo : Option κ) (key : κ) : Bool := readTo.all (key ≤ ·)

def absent (readTo : Option κ) (key : κ) (keys : List κ) : List κ :=
  if within readTo key then key::keys else keys

/-- What the walk adds from two places on, in ascending order. -/
def walk (sourceTo targetTo : Option κ) : List (KeyRow κ) → List (KeyRow κ) → KeyDiff κ
  | [],[] => {}
  | row::source,[] =>
    let diff := walk sourceTo targetTo source []
    {diff with missingInTarget := absent targetTo row.key diff.missingInTarget}
  | [],row::target =>
    let diff := walk sourceTo targetTo [] target
    {diff with missingInSource := absent sourceTo row.key diff.missingInSource}
  | row::source,other::target =>
    if row.key < other.key then
      let diff := walk sourceTo targetTo source (other::target)
      {diff with missingInTarget := absent targetTo row.key diff.missingInTarget}
    else if other.key < row.key then
      let diff := walk sourceTo targetTo (row::source) target
      {diff with missingInSource := absent sourceTo other.key diff.missingInSource}
    else
      let diff := walk sourceTo targetTo source target
      {diff with
        compared := diff.compared+1
        hashMismatches := if row.differs other then row.key::diff.hashMismatches else diff.hashMismatches}
  termination_by source target => source.length + target.length

def diffKeys (source target : KeyWindow κ) : KeyDiff κ :=
  {walk source.readTo target.readTo source.rows target.rows with
    windowEnd := match source.readTo,target.readTo with
      | some first,some second => some (min first second)
      | first,second => first.or second}

/-- The first rows of a side in key order, one more being read to learn whether there are more. -/
def window (sample : Nat) (rows : List (KeyRow κ)) : KeyWindow κ := ⟨rows.take sample,rows.length > sample⟩

/-- A side as a map: its rows in key order, each key once. -/
def Ascending (rows : List (KeyRow κ)) : Prop := rows.Pairwise (·.key < ·.key)

def Has (rows : List (KeyRow κ)) (key : κ) : Prop := ∃ row ∈ rows, row.key = key

def Differ (source target : List (KeyRow κ)) (key : κ) : Prop :=
  ∃ row ∈ source, ∃ other ∈ target, row.key = key ∧ other.key = key ∧ row.differs other

variable {key : κ} {source target : List (KeyRow κ)}

lemma mem_absent {keys} : key ∈ absent readTo first keys ↔ key = first ∧ within readTo key ∨ key ∈ keys := by
  unfold absent
  grind

lemma mem_walk (ascending : Ascending source) (sorted : Ascending target) :
    let diff := walk sourceTo targetTo source target
    (key ∈ diff.missingInTarget ↔ Has source key ∧ ¬Has target key ∧ within targetTo key) ∧
    (key ∈ diff.missingInSource ↔ Has target key ∧ ¬Has source key ∧ within sourceTo key) ∧
    (key ∈ diff.hashMismatches ↔ Differ source target key) := by
  unfold Ascending at ascending sorted
  fun_induction walk sourceTo targetTo source target with
  | case1 => simp [Has,Differ]
  | case2 row source diff ih =>
    simp only [pairwise_cons] at ascending
    have := ih ascending.2 sorted
    simp only [mem_absent,Has,Differ] at this ⊢
    grind
  | case3 row target diff ih =>
    simp only [pairwise_cons] at sorted
    have := ih ascending sorted.2
    simp only [mem_absent,Has,Differ] at this ⊢
    grind
  | case4 row source other target less diff ih =>
    simp only [pairwise_cons] at ascending
    have := ih ascending.2 sorted
    simp only [pairwise_cons] at sorted
    simp only [mem_absent,Has,Differ,mem_cons] at this ⊢
    grind
  | case5 row source other target _ less diff ih =>
    simp only [pairwise_cons] at sorted
    have := ih ascending sorted.2
    simp only [pairwise_cons] at ascending
    simp only [mem_absent,Has,Differ,mem_cons] at this ⊢
    grind
  | case6 row source other target _ _ diff ih =>
    simp only [pairwise_cons] at ascending sorted
    have := ih ascending.2 sorted.2
    simp only [Has,Differ,mem_cons] at this ⊢
    grind

/-- A window holds the rows up to where it stopped looking. -/
lemma mem_window (ascending : Ascending source) (positive : 0 < sample) {row : KeyRow κ} :
    row ∈ (window sample source).rows ↔ row ∈ source ∧ within (window sample source).readTo row.key := by
  unfold window KeyWindow.readTo
  by_cases more : source.length > sample
  · rcases eq_nil_or_concat (source.take sample) with none | ⟨front,last,split⟩
    · have size := congrArg length none
      rw [length_take,length_nil] at size
      omega
    · have whole := take_append_drop sample source
      unfold Ascending at ascending
      rw [← whole,split,concat_eq_append] at ascending ⊢
      simp only [pairwise_append,mem_append,mem_singleton] at ascending
      simp only [within]
      grind
  · rw [take_of_length_le (not_lt.mp more)]
    simp [more,within]

lemma has_window (ascending : Ascending source) (positive : 0 < sample) :
    Has (window sample source).rows key ↔ Has source key ∧ within (window sample source).readTo key := by
  unfold Has
  simp only [mem_window ascending positive]
  constructor
  · rintro ⟨row,⟨mem,read⟩,rfl⟩
    exact ⟨⟨row,mem,rfl⟩,read⟩
  · rintro ⟨⟨row,mem,rfl⟩,read⟩
    exact ⟨row,⟨mem,read⟩,rfl⟩

/-- Whatever the walk over two windows accuses a side of is so in the tables, and it misses no
difference at a key that neither window stops before. -/
theorem sampled_walk_exact (ascending : Ascending source) (sorted : Ascending target)
    (positive : 0 < sample) (key : κ) :
    let diff := diffKeys (window sample source) (window sample target)
    (key ∈ diff.missingInTarget → Has source key ∧ ¬Has target key) ∧
    (key ∈ diff.missingInSource → Has target key ∧ ¬Has source key) ∧
    (key ∈ diff.hashMismatches → Differ source target key) ∧
    (within (window sample source).readTo key → within (window sample target).readTo key →
      (Has source key ∧ ¬Has target key → key ∈ diff.missingInTarget) ∧
      (Has target key ∧ ¬Has source key → key ∈ diff.missingInSource) ∧
      (Differ source target key → key ∈ diff.hashMismatches)) := by
  have first : Ascending (window sample source).rows := ascending.sublist (take_sublist _ _)
  have second : Ascending (window sample target).rows := sorted.sublist (take_sublist _ _)
  obtain ⟨missing,extra,differ⟩ := @mem_walk κ _ key _ _ (window sample source).readTo
    (window sample target).readTo first second
  rw [has_window ascending positive,has_window sorted positive] at missing extra
  refine ⟨?_,?_,?_,fun inSource inTarget => ⟨?_,?_,?_⟩⟩
  · tauto
  · tauto
  · rw [diffKeys,differ]
    rintro ⟨row,mem,other,there,alike⟩
    exact ⟨row,mem_of_mem_take mem,other,mem_of_mem_take there,alike⟩
  · tauto
  · tauto
  · rw [diffKeys,differ]
    rintro ⟨row,mem,other,there,rfl,same,differs⟩
    exact ⟨row,(mem_window ascending positive).mpr ⟨mem,inSource⟩,other,
      (mem_window sorted positive).mpr ⟨there,same ▸ inTarget⟩,rfl,same,differs⟩

end

namespace Sample

def published : List (KeyRow Nat) := [⟨1,some 7⟩,⟨2,none⟩]

def stored : List (KeyRow Nat) := [⟨1,some 8⟩]

theorem first_rows_compared : 1 ∈ (diffKeys (window 1 published) (window 1 stored)).hashMismatches := by
  have ascending : Ascending published := by simp [Ascending,published]
  have sorted : Ascending stored := by simp [Ascending,stored]
  apply ((sampled_walk_exact ascending sorted Nat.one_pos 1).2.2.2 rfl rfl).2.2
  exact ⟨_,mem_cons_self,_,mem_cons_self,rfl,rfl,rfl⟩

end Sample
end Oxidant.Reconcile
