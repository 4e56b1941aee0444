import Mathlib.Data.List.Infix
import Oxidant.Cdc.Pgoutput

/-! The encoding of pgoutput messages, version 1 of the protocol, and the decoder as its inverse: a
reader gives back what was encoded, whatever follows, and fails on every part of it. -/
namespace Oxidant.Cdc
namespace Reader
lemma take_run (n r) :
    ∃ e, (take n).run r =
        if r.pos + n ≤ r.buf.length then .ok ((r.buf.drop r.pos).take n,{r with pos := r.pos + n})
        else .error e := by
  by_cases fits : r.pos + n ≤ r.buf.length
  · refine ⟨.io "",?_⟩
    change (StateT.run (if r.pos + n > r.buf.length then _ else _) r) = _
    rw [if_pos fits,if_neg (by omega)]
    rfl
  · simp only [if_neg fits]
    change ∃ e, (StateT.run (if r.pos + n > r.buf.length then _ else _) r) = _
    rw [if_pos (by omega)]
    exact ⟨_,rfl⟩

lemma cstr_run :
    ∃ e, cstr.run r = match (r.buf.drop r.pos).findIdx? (· == 0) with
    | none => .error e
    | some stop => match String.fromUTF8? ⟨((r.buf.drop r.pos).take stop).toArray⟩ with
      | none => .error e
      | some text => .ok (text,{r with pos := r.pos + stop + 1}) := by
  change ∃ e, (match (r.buf.drop r.pos).findIdx? (· == 0) with
    | none => _
    | some stop => match String.fromUTF8? ⟨((r.buf.drop r.pos).take stop).toArray⟩ with
      | none => _
      | some text => _ : Read String).run r = _
  cases (r.buf.drop r.pos).findIdx? (· == 0) with
  | none => exact ⟨_,rfl⟩
  | some stop =>
    dsimp only
    cases String.fromUTF8? ⟨((r.buf.drop r.pos).take stop).toArray⟩ with
    | none => exact ⟨_,rfl⟩
    | some text => exact ⟨.io "",rfl⟩

/-- The reader takes exactly these bytes for a value, and fails where they are cut short. -/
structure Decodes (read : Read α) (bytes : List UInt8) (value : α) : Prop where
  whole : ∀ front rest what, read.run ⟨front ++ (bytes ++ rest),front.length,what⟩ =
    .ok (value,⟨front ++ (bytes ++ rest),(front ++ bytes).length,what⟩)
  cut : ∀ front part what, part <+: bytes → part ≠ bytes →
    ∃ e, read.run ⟨front ++ part,front.length,what⟩ = .error e

lemma decodes_pure : Decodes (pure value) [] value where
  whole front rest what := by rw [List.append_nil]; rfl
  cut _ _ _ within differs := absurd (List.prefix_nil.mp within) differs

lemma Decodes.bind {read : Read α} {next : α → Read β} {bytes more : List UInt8} {value : α}
    {result : β} (first : Decodes read bytes value) (second : Decodes (next value) more result) :
    Decodes (read >>= next) (bytes ++ more) result where
  whole front rest what := by
    have two := second.whole (front ++ bytes) rest what
    rw [List.append_assoc,List.append_assoc] at two
    rw [StateT.run_bind,List.append_assoc bytes,first.whole front (more ++ rest) what]
    exact two
  cut front part what within differs := by
    have through {tail : List UInt8} (inside : tail <+: more) (short : tail ≠ more) :
        ∃ e, (read >>= next).run ⟨front ++ (bytes ++ tail),front.length,what⟩ = .error e := by
      obtain ⟨e,failed⟩ := second.cut (front ++ bytes) tail what inside short
      rw [List.append_assoc] at failed
      exact ⟨e,by rw [StateT.run_bind,first.whole front tail what]; exact failed⟩
    rcases List.prefix_or_prefix_of_prefix within (List.prefix_append bytes more) with short | long
    · by_cases same : part = bytes
      · subst same
        simpa using @through [] List.nil_prefix fun none => differs (by rw [← none,List.append_nil])
      · obtain ⟨e,failed⟩ := first.cut front part what short same
        exact ⟨e,by rw [StateT.run_bind,failed]; rfl⟩
    · obtain ⟨tail,rfl⟩ := long
      exact through ((List.prefix_append_right_inj _).mp within) fun same => differs (by rw [same])

lemma Decodes.map {read : Read α} {bytes : List UInt8} {value : α}
    (first : Decodes read bytes value) (image : α → β) :
    Decodes (read >>= fun value => pure (image value)) bytes (image value) := by
  have both := @Decodes.bind α β read (fun value => pure (image value)) bytes [] value _ first (decodes_pure)
  rwa [List.append_nil] at both

lemma decodes_take (bytes) : Decodes (take bytes.length) bytes bytes where
  whole front rest what := by
    obtain ⟨e,run⟩ := take_run bytes.length ⟨front ++ (bytes ++ rest),front.length,what⟩
    rw [run,if_pos (by simp)]
    simp
  cut front part what within differs := by
    have short := within.length_le
    have less : part.length ≠ bytes.length := fun same => differs (within.eq_of_length same)
    obtain ⟨e,run⟩ := take_run bytes.length ⟨front ++ part,front.length,what⟩
    exact ⟨e,by rw [run,if_neg (by simp; omega)]⟩

lemma decodes_u8 : Decodes u8 [byte] byte :=
  (decodes_take [byte]).map fun bytes => bytes[0]?.getD 0

def bytesOf : Nat → Nat → List UInt8
  | 0,_ => []
  | count+1,value => bytesOf count (value / 256) ++ [UInt8.ofNat value]

@[simp] lemma length_bytesOf : (bytesOf count value).length = count := by
  induction count generalizing value with
  | zero => rfl
  | succ count ih => simp [bytesOf,ih]

lemma bigEndian_bytesOf (value) : bigEndian (bytesOf count value) = value % 256 ^ count := by
  induction count generalizing value with
  | zero => simp [bytesOf,bigEndian,Nat.mod_one]
  | succ count ih =>
    have rest := ih (value / 256)
    unfold bigEndian at rest ⊢
    rw [bytesOf,List.foldl_append,rest,Nat.pow_succ',Nat.mod_mul]
    simp
    omega

lemma decodes_number (count value : Nat) (image : Nat → α) (fits : value < 256 ^ count) :
    Decodes (take count >>= fun bytes => pure (image (bigEndian bytes))) (bytesOf count value) (image value) := by
  have read := (decodes_take (bytesOf count value)).map fun bytes => image (bigEndian bytes)
  rwa [length_bytesOf,bigEndian_bytesOf,Nat.mod_eq_of_lt fits] at read

lemma decodes_signed (count modulus : Nat) {value : Int} (bits : modulus = 256 ^ count)
    (low : -(modulus : Int) ≤ value * 2) (high : value * 2 < modulus) :
    Decodes (take count >>= fun bytes => pure (Int.bmod (bigEndian bytes) modulus))
      (bytesOf count (value % modulus).toNat) value := by
  have nonneg := Int.emod_nonneg value (b := (modulus : Int)) (by omega)
  have below := Int.emod_lt_of_pos value (b := (modulus : Int)) (by omega)
  have read := decodes_number count (value % modulus).toNat (fun number : Nat =>
    Int.bmod number modulus) (by omega)
  rwa [Int.toNat_of_nonneg nonneg,Int.emod_bmod,Int.bmod_eq_of_le_mul_two low high] at read

lemma decodes_u32 (fits : value < 2^32) : Decodes u32 (bytesOf 4 value) value :=
  decodes_number 4 value id fits

lemma decodes_lsn (fits : value < 2^64) : Decodes lsn (bytesOf 8 value) value :=
  decodes_number 8 value id fits

lemma decodes_i16 (fits : value < 2^15) : Decodes i16 (bytesOf 2 value) value := by
  have read := @decodes_signed 2 (2^16) value rfl (by omega) (by omega)
  rwa [Int.emod_eq_of_lt (by omega) (by omega),Int.toNat_natCast] at read

lemma decodes_length (fits : value < 2^31) : Decodes i32 (bytesOf 4 value) value := by
  have read := @decodes_signed 4 (2^32) value rfl (by omega) (by omega)
  rwa [Int.emod_eq_of_lt (by omega) (by omega),Int.toNat_natCast] at read

def textBytes (text : String) : List UInt8 := text.toByteArray.data.toList ++ [0]

lemma findIdx?_zero {bytes rest : List UInt8} (clean : 0 ∉ bytes) :
    (bytes ++ rest).findIdx? (· == 0) = (rest.findIdx? (· == 0)).map (· + bytes.length) := by
  have none : bytes.findIdx? (· == 0) = none := by
    rw [List.findIdx?_eq_none_iff]
    intro byte mem
    exact beq_eq_false_iff_ne.mpr fun zero => clean (zero ▸ mem)
  rw [List.findIdx?_append,none]
  rfl

lemma decodes_cstr {text : String} (clean : 0 ∉ text.toByteArray.data.toList) :
    Decodes cstr (textBytes text) text where
  whole front rest what := by
    obtain ⟨e,run⟩ := cstr_run
    have stop : (textBytes text ++ rest).findIdx? (· == 0) = some text.toByteArray.data.toList.length := by
      rw [textBytes,List.append_assoc,findIdx?_zero clean]
      simp [List.findIdx?_cons]
    have taken : (textBytes text ++ rest).take text.toByteArray.data.toList.length =
        text.toByteArray.data.toList := by rw [textBytes,List.append_assoc,List.take_left]
    have back : String.fromUTF8? ⟨text.toByteArray.data.toList.toArray⟩ = some text :=
      dif_pos text.isValidUTF8
    rw [run,List.drop_left,stop]
    dsimp only
    rw [taken,back,textBytes,List.length_append,List.length_append]
    rfl
  cut front part what within differs := by
    obtain ⟨e,run⟩ := cstr_run
    refine ⟨e,?_⟩
    have inside : part <+: text.toByteArray.data.toList :=
      ((List.prefix_concat_iff).mp within).resolve_left differs
    rw [run,List.drop_left,← List.append_nil part,findIdx?_zero fun zero => clean (inside.subset zero)]
    rfl

lemma decodes_repeated (each : ∀ value ∈ items, Decodes item (encode value) value) :
    Decodes (repeated item items.length) (items.flatMap encode) items := by
  induction items with
  | nil => exact decodes_pure
  | cons first items ih =>
    exact (each first List.mem_cons_self).bind
      ((ih fun value mem => each value (List.mem_cons_of_mem _ mem)).map (first::·))

def tag (letter : Char) : UInt8 := UInt8.ofNat letter.toNat

def dataBytes : TupleData → List UInt8
  | .null => [tag 'n']
  | .unchangedToast => [tag 'u']
  | .text bytes => tag 't'::(bytesOf 4 bytes.length ++ bytes)
  | .binary bytes => tag 'b'::(bytesOf 4 bytes.length ++ bytes)

def tupleBytes (tuple : List TupleData) : List UInt8 :=
  bytesOf 2 tuple.length ++ tuple.flatMap dataBytes

def sectionBytes (letter : Char) : Option (List TupleData) → List UInt8
  | none => []
  | some tuple => tag letter::tupleBytes tuple

def columnBytes (column : RelationColumn) : List UInt8 :=
  (if column.key then 1 else 0)::(textBytes column.name ++
    (bytesOf 4 column.typeOid ++ bytesOf 4 (column.typeModifier % 2^32).toNat))

def messageBytes : LogicalMessage → List UInt8
  | .begin finalLsn commitTime xid =>
    tag 'B'::(bytesOf 8 finalLsn ++ (bytesOf 8 (commitTime % 2^64).toNat ++ bytesOf 4 xid))
  | .commit flags commitLsn endLsn commitTime => tag 'C'::flags::(bytesOf 8 commitLsn ++
      (bytesOf 8 endLsn ++ bytesOf 8 (commitTime % 2^64).toNat))
  | .origin commitLsn name => tag 'O'::(bytesOf 8 commitLsn ++ textBytes name)
  | .relation relation => tag 'R'::(bytesOf 4 relation.oid ++ (textBytes relation.namespace ++
      (textBytes relation.name ++ (relation.replicaIdentity::(bytesOf 2 relation.columns.length ++
        relation.columns.flatMap columnBytes)))))
  | .type oid «namespace» name => tag 'Y'::(bytesOf 4 oid ++ (textBytes «namespace» ++ textBytes name))
  | .insert relation new => tag 'I'::(bytesOf 4 relation ++ (tag 'N'::tupleBytes new))
  | .update relation key old new => tag 'U'::(bytesOf 4 relation ++ (sectionBytes 'K' key ++
      (sectionBytes 'O' old ++ (tag 'N'::tupleBytes new))))
  | .delete relation key old => tag 'D'::(bytesOf 4 relation ++ (sectionBytes 'K' key ++ sectionBytes 'O' old))
  | .truncate options relations =>
    tag 'T'::(bytesOf 4 relations.length ++ (options::relations.flatMap (bytesOf 4)))

def CleanText (text : String) : Prop := 0 ∉ text.toByteArray.data.toList

def FitsData : TupleData → Prop
  | .null | .unchangedToast => True
  | .text bytes | .binary bytes => bytes.length < 2^31

def FitsTuple (tuple : List TupleData) : Prop :=
  tuple.length < 2^15 ∧ ∀ value ∈ tuple, FitsData value

structure FitsColumn (column : RelationColumn) : Prop where
  name : CleanText column.name
  typeOid : column.typeOid < 2^32
  typeModifier : -2^31 ≤ column.typeModifier ∧ column.typeModifier < 2^31

def Representable : LogicalMessage → Prop
  | .begin finalLsn commitTime xid => finalLsn < 2^64 ∧ (-2^63 ≤ commitTime ∧ commitTime < 2^63) ∧ xid < 2^32
  | .commit _ commitLsn endLsn commitTime =>
    commitLsn < 2^64 ∧ endLsn < 2^64 ∧ -2^63 ≤ commitTime ∧ commitTime < 2^63
  | .origin commitLsn name => commitLsn < 2^64 ∧ CleanText name
  | .relation relation => relation.oid < 2^32 ∧ CleanText relation.namespace ∧
    relation.namespace ≠ "" ∧ CleanText relation.name ∧ relation.columns.length < 2^15 ∧
    ∀ column ∈ relation.columns, FitsColumn column
  | .type oid «namespace» name => oid < 2^32 ∧ CleanText «namespace» ∧ CleanText name
  | .insert relation new => relation < 2^32 ∧ FitsTuple new
  | .update relation key old new => relation < 2^32 ∧ (key = none ∨ old = none) ∧
    (∀ tuple ∈ key, FitsTuple tuple) ∧ (∀ tuple ∈ old, FitsTuple tuple) ∧ FitsTuple new
  | .delete relation key old => relation < 2^32 ∧
    (∃ tuple, FitsTuple tuple ∧ (key = some tuple ∧ old = none ∨ key = none ∧ old = some tuple))
  | .truncate _ relations => relations.length < 2^31 ∧ ∀ relation ∈ relations, relation < 2^32

lemma decodes_tagged {next : UInt8 → Read α} {letter : Char} {more : List UInt8} {value : α}
    (second : Decodes (next (tag letter)) more value) :
    Decodes (u8 >>= next) (tag letter::more) value := (decodes_u8).bind second

lemma decodes_data {value : TupleData} (fits : FitsData value) : Decodes tupleData (dataBytes value) value := by
  have sized {bytes : List UInt8} (short : bytes.length < 2^31) (image : List UInt8 → TupleData) :
      Decodes (i32 >>= fun count => take count.toNat >>= fun bytes => pure (image bytes))
        (bytesOf 4 bytes.length ++ bytes) (image bytes) :=
    (decodes_length short).bind (by simpa using (decodes_take bytes).map image)
  cases value with
  | null => exact decodes_tagged (decodes_pure)
  | unchangedToast => exact decodes_tagged (decodes_pure)
  | text bytes => exact decodes_tagged (sized fits .text)
  | binary bytes => exact decodes_tagged (sized fits .binary)

lemma decodes_tuple (fits : FitsTuple values) : Decodes tuple (tupleBytes values) values := by
  apply (decodes_i16 fits.1).bind
  have counted : ¬((values.length : Int) < 0) := by omega
  exact decodes_repeated fun value mem => decodes_data (fits.2 value mem)

lemma decodes_i32 {value : Int} (fits : -2^31 ≤ value ∧ value < 2^31) :
    Decodes i32 (bytesOf 4 (value % 2^32).toNat) value :=
  @decodes_signed 4 (2^32) value rfl (by omega) (by omega)

lemma decodes_i64 {value : Int} (fits : -2^63 ≤ value ∧ value < 2^63) :
    Decodes i64 (bytesOf 8 (value % 2^64).toNat) value :=
  @decodes_signed 8 (2^64) value rfl (by omega) (by omega)

lemma decodes_column {column : RelationColumn} (fits : FitsColumn column) :
    Decodes relationColumn (columnBytes column) column := by
  obtain ⟨key,name,typeOid,typeModifier⟩ := column
  obtain ⟨clean,oid,modifier⟩ := fits
  refine (decodes_u8).bind ((decodes_cstr clean).bind ((decodes_u32 oid).bind ?_))
  cases key with
  | false => exact (decodes_i32 modifier).map (RelationColumn.mk false name typeOid)
  | true => exact (decodes_i32 modifier).map (RelationColumn.mk true name typeOid)

lemma decodes_relation {table : Relation} (fits : Representable (.relation table)) :
    Decodes message (messageBytes (.relation table)) (.relation table) := by
  obtain ⟨oid,«namespace»,name,identity,columns⟩ := table
  obtain ⟨number,schema,named,clean,count,all⟩ := fits
  have kept : (if «namespace».isEmpty then "pg_catalog" else «namespace») = «namespace» :=
    if_neg (by simpa using named)
  have body : Decodes relation _ ⟨oid,«namespace»,name,identity,columns⟩ :=
    (decodes_u32 number).bind ((decodes_cstr schema).bind ((decodes_cstr clean).bind
      ((decodes_u8).bind ((decodes_i16 count).bind (by
        simp only [Int.toNat_natCast,kept]
        exact (decodes_repeated fun column mem => decodes_column (all column mem)).map
          (Relation.mk oid «namespace» name identity))))))
  exact decodes_tagged (body.map LogicalMessage.relation)

lemma u32_sized (next : Nat → Nat → Read β) :
    (do next (← u32) (← get).buf.length : Read β).run r = (do next (← u32) r.buf.length : Read β).run r := by
  obtain ⟨e,run⟩ := take_run 4 r
  unfold u32
  simp only [bind_assoc,pure_bind,StateT.run_bind,run]
  split <;> rfl

lemma decodes_update {new : List TupleData} (fits : Representable (.update number key old new)) (room : Nat) :
    Decodes (updateSections number (room+2) none none)
      (sectionBytes 'K' key ++ (sectionBytes 'O' old ++ (tag 'N'::tupleBytes new)))
      (.update number key old new) := by
  obtain ⟨-,one,keyed,full,last⟩ := fits
  have closes (room : Nat) (key old : Option (List TupleData)) :
      Decodes (updateSections number (room+1) key old) (tag 'N'::tupleBytes new) (.update number key old new) :=
    decodes_tagged ((decodes_tuple last).map (LogicalMessage.update number key old))
  match key,old with
  | none,none => exact closes (room+1) none none
  | some key,none => exact decodes_tagged ((decodes_tuple (keyed key rfl)).bind (closes room (some key) none))
  | none,some old => exact decodes_tagged ((decodes_tuple (full old rfl)).bind (closes room none (some old)))
  | some _,some _ => simp at one

lemma decodes_sized (next : Nat → Nat → Read β) {more : List UInt8} {value : β} (fits : number < 2^32)
    (second : ∀ room, Decodes (next number (room+2)) more value) :
    Decodes (do next (← u32) (← get).buf.length) (bytesOf 4 number ++ more) value := by
  have plain (room : Nat) : Decodes (u32 >>= fun number => next number (room+2)) (bytesOf 4 number ++ more) value :=
    (decodes_u32 fits).bind (second room)
  refine ⟨fun front rest what => ?_,fun front part what within differs => ?_⟩
  · obtain ⟨room,long⟩ : ∃ room, (front ++ ((bytesOf 4 number ++ more) ++ rest)).length = room + 2 :=
      Nat.exists_eq_add_of_le' (by simp; omega)
    have run := (plain room).whole front rest what
    rw [← long] at run
    rw [u32_sized]
    exact run
  · by_cases short : part.length < 4
    · obtain ⟨e,run⟩ := take_run 4 ⟨front ++ part,front.length,what⟩
      rw [if_neg (by simp; omega)] at run
      refine ⟨e,?_⟩
      unfold u32
      simp only [bind_assoc,StateT.run_bind,run]
      rfl
    · obtain ⟨room,long⟩ : ∃ room, (front ++ part).length = room + 2 :=
        Nat.exists_eq_add_of_le' (by simp; omega)
      obtain ⟨e,run⟩ := (plain room).cut front part what within differs
      rw [← long] at run
      exact ⟨e,by rw [u32_sized]; exact run⟩

lemma decodes_delete (fits : Representable (.delete number key old)) :
    Decodes (deleteSection number) (sectionBytes 'K' key ++ sectionBytes 'O' old) (.delete number key old) := by
  obtain ⟨-,values,sized,⟨rfl,rfl⟩ | ⟨rfl,rfl⟩⟩ := fits
  · rw [show sectionBytes 'O' none = [] from rfl,List.append_nil]
    exact decodes_tagged ((decodes_tuple sized).map fun values => LogicalMessage.delete number (some values) none)
  · exact decodes_tagged ((decodes_tuple sized).map fun values => LogicalMessage.delete number none (some values))

lemma decodes_expectTag : Decodes (expectTag 'N' "Insert") [tag 'N'] () :=
  decodes_tagged (decodes_pure)

lemma decodes_message {value : LogicalMessage} (fits : Representable value) :
    Decodes message (messageBytes value) value := by
  cases value with
  | begin finalLsn commitTime xid =>
    exact decodes_tagged ((decodes_lsn fits.1).bind ((decodes_i64 fits.2.1).bind
      ((decodes_u32 fits.2.2).map (LogicalMessage.begin finalLsn commitTime))))
  | commit flags commitLsn endLsn commitTime =>
    exact decodes_tagged ((decodes_u8).bind ((decodes_lsn fits.1).bind ((decodes_lsn fits.2.1).bind
        ((decodes_i64 fits.2.2).map (LogicalMessage.commit flags commitLsn endLsn)))))
  | origin commitLsn name =>
    exact decodes_tagged ((decodes_lsn fits.1).bind ((decodes_cstr fits.2).map (LogicalMessage.origin commitLsn)))
  | relation table => exact decodes_relation fits
  | type oid «namespace» name =>
    exact decodes_tagged ((decodes_u32 fits.1).bind ((decodes_cstr fits.2.1).bind
      ((decodes_cstr fits.2.2).map (LogicalMessage.type oid «namespace»))))
  | insert number new =>
    exact decodes_tagged ((decodes_u32 fits.1).bind (decodes_expectTag.bind
      ((decodes_tuple fits.2).map (LogicalMessage.insert number))))
  | update number key old new =>
    exact decodes_tagged (decodes_sized (fun number room => updateSections number room none none)
      fits.1 (decodes_update fits))
  | delete number key old => exact decodes_tagged ((decodes_u32 fits.1).bind (decodes_delete fits))
  | truncate options relations =>
    refine decodes_tagged ((decodes_length fits.1).bind ((decodes_u8).bind ?_))
    exact (decodes_repeated fun relation mem => decodes_u32 (fits.2 relation mem)).map
      (LogicalMessage.truncate options)

def slice (buf : List UInt8) (start stop : Nat) : Option (List UInt8) :=
  if start ≤ stop ∧ stop ≤ buf.length then some ((buf.drop start).take (stop - start)) else none

abbrev Indexed (α : Type) := Reader → Option (Except Error (α × Reader))

def takeIndexed (n : Nat) : Indexed (List UInt8) := fun r =>
  let pos := r.pos
  let what := r.what
  let left := r.buf.length - pos
  -- The sum saturates.
  let stop := min (pos + n) (2^64 - 1)
  if stop > r.buf.length then
    some (.error (.io s!"{what} message is truncated: wanted {n} byte(s) at offset {pos}, only {left} left"))
  else (slice r.buf pos stop).map fun bytes => .ok (bytes,{r with pos := stop})

def u8Indexed : Indexed UInt8 := fun r => do
  match ← takeIndexed 1 r with
  | .error e => some (.error e)
  | .ok (bytes,r) => return .ok (← bytes[0]?,r)

def fixedIndexed (count : Nat) : Indexed (List UInt8) := fun r => do
  match ← takeIndexed count r with
  | .error e => some (.error e)
  | .ok (bytes,r) => if bytes.length = count then some (.ok (bytes,r)) else none

def cstrIndexed : Indexed String := fun r => do
  let pos := r.pos
  let what := r.what
  let rest ← slice r.buf (min pos r.buf.length) r.buf.length
  match rest.findIdx? (· == 0) with
  | none => some (.error (.io s!"{what} message ends inside a string at offset {pos}"))
  | some stop =>
    let bytes ← slice rest 0 stop
    match String.fromUTF8? ⟨bytes.toArray⟩ with
    | none =>
      let e := utf8Error bytes 0
      some (.error (.io s!"{what} message has a non-UTF-8 string: {e}"))
    | some text => some (.ok (text,{r with pos := pos + stop + 1}))

lemma takeIndexed_eq (addressed : r.buf.length < 2^63) : takeIndexed n r = some ((take n).run r) := by
  change (if min (r.pos + n) (2^64 - 1) > r.buf.length then _ else _) =
    some (StateT.run (if r.pos + n > r.buf.length then _ else _) r)
  by_cases fits : r.pos + n > r.buf.length
  · rw [if_pos fits,if_pos (by omega)]
    rfl
  · rw [if_neg fits,if_neg (by omega),Nat.min_eq_left (by omega),slice,if_pos (by omega),
      Nat.add_sub_cancel_left]
    rfl

lemma fixedIndexed_eq (addressed : r.buf.length < 2^63) : fixedIndexed count r = some ((take count).run r) := by
  obtain ⟨e,run⟩ := take_run count r
  rw [fixedIndexed,takeIndexed_eq addressed,run]
  by_cases fits : r.pos + count ≤ r.buf.length
  · rw [if_pos fits]
    exact if_pos (by simp; omega)
  · rw [if_neg fits]
    rfl

lemma u8Indexed_eq (addressed : r.buf.length < 2^63) : u8Indexed r = some (u8.run r) := by
  obtain ⟨e,run⟩ := take_run 1 r
  rw [u8Indexed,takeIndexed_eq addressed,u8,StateT.run_bind,run]
  by_cases fits : r.pos + 1 ≤ r.buf.length
  · rw [if_pos fits]
    obtain ⟨byte,rest,cons⟩ : ∃ byte rest, (r.buf.drop r.pos).take 1 = byte::rest :=
      List.exists_cons_of_length_pos (by simp; omega)
    rw [cons]
    rfl
  · rw [if_neg fits]
    rfl

lemma cstrIndexed_eq : cstrIndexed r = some (cstr.run r) := by
  have tail : slice r.buf (min r.pos r.buf.length) r.buf.length = some (r.buf.drop r.pos) := by
    rw [slice,if_pos (by omega)]
    rcases le_total r.pos r.buf.length with inside | past
    · rw [Nat.min_eq_left inside,List.take_of_length_le (by simp)]
    · rw [Nat.min_eq_right past,List.drop_of_length_le past]
      simp
  simp only [cstrIndexed,tail]
  change (match (r.buf.drop r.pos).findIdx? (· == 0) with | none => _ | some stop => _) =
    some ((match (r.buf.drop r.pos).findIdx? (· == 0) with
      | none => _
      | some stop => match String.fromUTF8? ⟨((r.buf.drop r.pos).take stop).toArray⟩ with
        | none => _
        | some text => _ : Read String).run r)
  cases found : (r.buf.drop r.pos).findIdx? (· == 0) with
  | none => rfl
  | some stop =>
    have inside := (List.findIdx?_eq_some_iff_findIdx_eq.mp found).1
    have head : slice (r.buf.drop r.pos) 0 stop = some ((r.buf.drop r.pos).take stop) :=
      if_pos ⟨Nat.zero_le _,inside.le⟩
    simp only [head,Option.bind_eq_bind,Option.bind_some]
    cases String.fromUTF8? ⟨((r.buf.drop r.pos).take stop).toArray⟩ with
    | none => rfl
    | some text => rfl

end Reader

open Reader

theorem decode_logical_inverts_encoding :
    (∀ value, Representable value → decodeLogical (messageBytes value) = .ok value ∧
      ∀ part, part <+: messageBytes value → part ≠ messageBytes value → ∃ e, decodeLogical part = .error e) ∧
    -- No read of any body, from any offset, panics.
    ∀ r : Reader, r.buf.length < 2^63 → u8Indexed r = some (u8.run r) ∧ cstrIndexed r = some (cstr.run r) ∧
      ∀ n, takeIndexed n r = some ((take n).run r) ∧ fixedIndexed n r = some ((take n).run r) := by
  refine ⟨fun value fits => ⟨?_,fun part within differs => ?_⟩,fun r addressed =>
    ⟨u8Indexed_eq addressed,cstrIndexed_eq,fun n => ⟨takeIndexed_eq addressed,fixedIndexed_eq addressed⟩⟩⟩
  · have run := (decodes_message fits).whole [] [] "pgoutput"
    rw [List.append_nil,List.nil_append] at run
    exact congrArg (Except.map Prod.fst) run
  · obtain ⟨e,run⟩ := (decodes_message fits).cut [] part "pgoutput" within differs
    exact ⟨e,congrArg (Except.map Prod.fst) run⟩

def Sample.movedRow : LogicalMessage :=
  .update 16384 (some [.text [49],.null]) none [.text [50],.unchangedToast]

theorem Sample.moved_row_decoded : Representable movedRow ∧ decodeLogical (messageBytes movedRow) = .ok movedRow := by
  have fits : Representable movedRow := by simp [movedRow,Representable,FitsTuple,FitsData]
  exact ⟨fits,(decode_logical_inverts_encoding.1 movedRow fits).1⟩

end Oxidant.Cdc
