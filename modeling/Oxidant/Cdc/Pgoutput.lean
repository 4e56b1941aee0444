import Oxidant.Common

/-! Write-ahead-log positions and the pgoutput messages, version 1 of the protocol, with the
decoder of a message body. -/
namespace Oxidant.Cdc

/-! A write-ahead-log position is an unsigned 64-bit number, here a natural one. -/
namespace Lsn

def asI64 (lsn : Nat) : Int := I64.ofNat lsn

def fromI64 (value : Int) : Nat := (value % 2^64).toNat

private def hex (value : Nat) : String :=
  String.ofList ((Nat.toDigits 16 value).map Char.toUpper)

def display (lsn : Nat) : String :=
  hex (lsn / 2^32) ++ "/" ++ hex (lsn % 2^32)

theorem fromI64_asI64 (fits : lsn < 2^64) : fromI64 (asI64 lsn) = lsn := by
  unfold fromI64 asI64 I64.ofNat
  rw [Int.bmod_def]
  split <;> omega

theorem asI64_eq (low : lsn < 2^63) : asI64 lsn = lsn := by
  unfold asI64 I64.ofNat
  rw [Int.bmod_def]
  split <;> omega

theorem asI64_lt (below : first < last) (low : last < 2^63) : asI64 first < asI64 last := by
  rw [asI64_eq low,asI64_eq (Nat.lt_trans below low)]
  exact Int.ofNat_lt.mpr below

theorem asI64_inj (small : first < 2^63) (low : last < 2^63) (same : asI64 first = asI64 last) : first = last := by
  rw [asI64_eq small,asI64_eq low] at same
  exact Int.ofNat_inj.mp same

end Lsn

inductive TupleData where
  | null
  | unchangedToast
  | text (bytes : List UInt8)
  | binary (bytes : List UInt8)
  deriving DecidableEq, Repr

structure RelationColumn where
  key : Bool
  name : String
  typeOid : Nat
  typeModifier : Int
  deriving DecidableEq, Repr

structure Relation where
  oid : Nat
  «namespace» : String
  name : String
  replicaIdentity : UInt8
  columns : List RelationColumn
  deriving DecidableEq, Repr

def Relation.qualified (relation : Relation) : String :=
  relation.namespace ++ "." ++ relation.name

inductive LogicalMessage where
  | begin (finalLsn : Nat) (commitTime : Int) (xid : Nat)
  | commit (flags : UInt8) (commitLsn endLsn : Nat) (commitTime : Int)
  | origin (commitLsn : Nat) (name : String)
  | relation (relation : Relation)
  | type (oid : Nat) («namespace» name : String)
  | insert (relation : Nat) (new : List TupleData)
  | update (relation : Nat) (key old : Option (List TupleData)) (new : List TupleData)
  | delete (relation : Nat) (key old : Option (List TupleData))
  | truncate (options : UInt8) (relations : List Nat)
  deriving DecidableEq, Repr

structure Reader where
  buf : List UInt8
  pos : Nat := 0
  what : String

abbrev Read := StateT Reader (Except Error)

namespace Reader

def take (n : Nat) : Read (List UInt8) := do
  let r ← get
  let pos := r.pos
  let what := r.what
  let left := r.buf.length - pos
  if pos + n > r.buf.length then
    throw (.io s!"{what} message is truncated: wanted {n} byte(s) at offset {pos}, only {left} left")
  set {r with pos := pos + n}
  return (r.buf.drop pos).take n

def u8 : Read UInt8 := return ((← take 1)[0]?).getD 0

def bigEndian (bytes : List UInt8) : Nat := bytes.foldl (fun value byte => value * 256 + byte.toNat) 0

def i16 : Read Int := return Int.bmod (bigEndian (← take 2)) (2^16)

def u32 : Read Nat := return bigEndian (← take 4)

def i32 : Read Int := return Int.bmod (bigEndian (← take 4)) (2^32)

def i64 : Read Int := return Int.bmod (bigEndian (← take 8)) (2^64)

def lsn : Read Nat := return bigEndian (← take 8)

/-- What may follow a first byte of UTF-8. -/
def continuations (first : UInt8) : Option (List (UInt8 × UInt8)) :=
  let any := (0x80,0xbf)
  if first < 0x80 then some []
  else if first < 0xc2 then none
  else if first < 0xe0 then some [any]
  else if first < 0xf0 then
    some [if first = 0xe0 then (0xa0,0xbf) else if first = 0xed then (0x80,0x9f) else any,any]
  else if first < 0xf5 then
    some [if first = 0xf0 then (0x90,0xbf) else if first = 0xf4 then (0x80,0x8f) else any,any,any]
  else none

/-- The text of a `FromUtf8Error`: where the first sequence starts that is no character. -/
def utf8Error : List UInt8 → Nat → String
  | [],_ => ""
  | first::rest,index =>
    let ranges := (continuations first).getD []
    let fits := ((rest.zip ranges).takeWhile fun (byte,low,high) => low ≤ byte && byte ≤ high).length
    let count := fits + 1
    if continuations first = none ∨ fits < ranges.length ∧ fits < rest.length then
      s!"invalid utf-8 sequence of {count} bytes from index {index}"
    else if fits < ranges.length then s!"incomplete utf-8 byte sequence from index {index}"
    else utf8Error (rest.drop fits) (index + count)
  termination_by bytes => bytes.length
  decreasing_by simp only [List.length_drop,List.length_cons]; omega

def cstr : Read String := do
  let r ← get
  let pos := r.pos
  let what := r.what
  let rest := r.buf.drop pos
  match rest.findIdx? (· == 0) with
  | none => throw (.io s!"{what} message ends inside a string at offset {pos}")
  | some stop => match String.fromUTF8? ⟨(rest.take stop).toArray⟩ with
    | none =>
      let e := utf8Error (rest.take stop) 0
      throw (.io s!"{what} message has a non-UTF-8 string: {e}")
    | some text =>
      set {r with pos := pos + stop + 1}
      return text

def repeated {α : Type} (item : Read α) : Nat → Read (List α)
  | 0 => return []
  | count+1 => return (← item)::(← repeated item count)

def asChar (byte : UInt8) : String := String.singleton (Char.ofNat byte.toNat)

def tupleData : Read TupleData := do
  let kind ← u8
  match Char.ofNat kind.toNat with
  | 'n' => return .null
  | 'u' => return .unchangedToast
  | 't' => return .text (← take (← i32).toNat)
  | 'b' => return .binary (← take (← i32).toNat)
  | _ =>
    let what := (← get).what
    let shown := asChar kind
    throw (.io s!"{what} message has tuple kind `{shown}`, which pgoutput v1 does not define")

def tuple : Read (List TupleData) := do
  let columns ← i16
  if columns < 0 then
    let what := (← get).what
    throw (.io s!"{what} message declares {columns} columns")
  repeated tupleData columns.toNat

def expectTag (tag : Char) (what : String) : Read Unit := do
  let got ← u8
  if Char.ofNat got.toNat ≠ tag then
    let shown := asChar got
    throw (.io s!"pgoutput {what} message expected section `{tag}`, got `{shown}`")

def relationColumn : Read RelationColumn := do
  let flags ← u8
  return {key := flags % 2 == 1,name := ← cstr,typeOid := ← u32,typeModifier := ← i32}

def relation : Read Relation := do
  let oid ← u32
  let «namespace» ← cstr
  let name ← cstr
  let replicaIdentity ← u8
  let count ← i16
  let columns ← repeated relationColumn count.toNat
  -- The catalog's own schema is sent as an empty one.
  return {oid,«namespace» := if «namespace».isEmpty then "pg_catalog" else «namespace», name,replicaIdentity,columns}

/-- The sections of an update up to its new row. Each takes a byte, so the body's length is room
enough. -/
def updateSections (relation : Nat) : Nat → Option (List TupleData) → Option (List TupleData) → Read LogicalMessage
  | 0,_,_ => do
    let _ ← take ((← get).buf.length + 1)
    throw (.io "pgoutput Update message has no new row")
  | room+1,key,old => do
    let kind ← u8
    match Char.ofNat kind.toNat with
    | 'K' => updateSections relation room (some (← tuple)) old
    | 'O' => updateSections relation room key (some (← tuple))
    | 'N' => return .update relation key old (← tuple)
    | _ =>
      let shown := asChar kind
      throw (.io s!"pgoutput Update message has section `{shown}`")

def deleteSection (relation : Nat) : Read LogicalMessage := do
  let kind ← u8
  match Char.ofNat kind.toNat with
  | 'K' => return .delete relation (some (← tuple)) none
  | 'O' => return .delete relation none (some (← tuple))
  | _ =>
    let shown := asChar kind
    throw (.io s!"pgoutput Delete message has section `{shown}`")

def message : Read LogicalMessage := do
  let kind ← u8
  match Char.ofNat kind.toNat with
  | 'B' => return .begin (← lsn) (← i64) (← u32)
  | 'C' => return .commit (← u8) (← lsn) (← lsn) (← i64)
  | 'O' => return .origin (← lsn) (← cstr)
  | 'R' => return .relation (← relation)
  | 'Y' => return .type (← u32) (← cstr) (← cstr)
  | 'I' =>
    let relation ← u32
    expectTag 'N' "Insert"
    return .insert relation (← tuple)
  | 'U' => updateSections (← u32) (← get).buf.length none none
  | 'D' => deleteSection (← u32)
  | 'T' =>
    let count ← i32
    let options ← u8
    return .truncate options (← repeated u32 count.toNat)
  | _ =>
    let shown := asChar kind
    throw (.io s!"pgoutput message type `{shown}` is not part of protocol version 1")

end Reader

def decodeLogical (bytes : List UInt8) : Except Error LogicalMessage :=
  (Reader.message.run {buf := bytes,what := "pgoutput"}).map Prod.fst

inductive WireMessage where
  | keepalive (walEnd : Nat) (replyRequested : Bool)
  | xlogData (walStart walEnd : Nat) (data : List UInt8)
  deriving DecidableEq, Repr

end Oxidant.Cdc
