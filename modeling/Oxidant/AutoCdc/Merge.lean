import Oxidant.Lib.Traverse
import Oxidant.Streaming.Source
import Oxidant.Lib.Upsert
import Mathlib.Data.String.Basic
import Mathlib.Data.Sum.Order

/-! The options of an AUTO CDC flow with their validation, and the merge of a micro-batch into its
target: the statement the options make, what the engine answers it with, and the sink's call of it. -/
namespace Oxidant.AutoCdc
open Streaming Lib List Option

structure AutoCdcConfig where
  source : String
  keys : List String
  sequenceBy : String
  applyAsDeletes : Option String := none
  applyAsTruncates : Option String := none
  columnList : Option (List String) := none
  exceptColumnList : Option (List String) := none
  ignoreNullUpdatesColumns : Option (List String) := none
  ignoreNullUpdatesExcept : Option (List String) := none
  deriving DecidableEq, Repr

/-- Classes of characters of the source's standard library. What may stand in a name is not blank.
-/
structure CharClasses where
  isAlphabetic : Char → Bool
  isAlphanumeric : Char → Bool
  isWhitespace : Char → Bool
  alphabetic : ∀ c, isAlphabetic c = true → isWhitespace c = false
  alphanumeric : ∀ c, isAlphanumeric c = true → isWhitespace c = false
  underscore : isWhitespace '_' = false

section Names
variable (chars : CharClasses)

def trim (text : String) : String :=
  String.ofList ((text.toList.dropWhile chars.isWhitespace).reverse.dropWhile chars.isWhitespace).reverse

def unquote (text : String) : String :=
  match text.toList with
  | '\x60'::rest => match rest.reverse with
    | '\x60'::inner => String.ofList inner.reverse
    | _ => text
  | _ => text

def isPlain (text : String) : Bool :=
  match text.toList with
  | [] => false
  | first::rest => !(first::rest).contains '\x60' && (chars.isAlphabetic first || first == '_') &&
    rest.all fun c => chars.isAlphanumeric c || c == '_'

def simpleColumn (expr : String) : Option String :=
  let unquoted := unquote (trim chars expr)
  if isPlain chars unquoted then some unquoted else none

variable {chars} in
lemma trim_plain (plain : isPlain chars text = true) : trim chars text = text := by
  have solid : ∀ c ∈ text.toList, chars.isWhitespace c = false := by
    unfold isPlain at plain
    intro c mem
    split at plain
    · cases plain
    · next first rest letters =>
      rw [letters] at mem
      simp only [Bool.and_eq_true,Bool.or_eq_true,beq_iff_eq,List.all_eq_true] at plain
      rcases mem_cons.mp mem with rfl | later
      · rcases plain.1.2 with letter | rfl
        · exact chars.alphabetic _ letter
        · exact chars.underscore
      · rcases plain.2 c later with letter | rfl
        · exact chars.alphanumeric _ letter
        · exact chars.underscore
  have stays (letters : List Char) (solid : ∀ c ∈ letters, chars.isWhitespace c = false) :
      letters.dropWhile chars.isWhitespace = letters := by
    cases letters with
    | nil => rfl
    | cons first rest => simp [solid first mem_cons_self]
  unfold trim
  rw [stays _ solid,stays _ fun c mem => solid c (mem_reverse.mp mem),reverse_reverse,String.ofList_toList]

variable {chars} in
lemma simpleColumn_idem (simple : simpleColumn chars expr = some name) : simpleColumn chars name = some name := by
  unfold simpleColumn at simple ⊢
  dsimp only at simple ⊢
  split at simple
  · next plain =>
    cases simple
    rw [trim_plain plain]
    have same : unquote (unquote (trim chars expr)) = unquote (trim chars expr) := by
      generalize unquote (trim chars expr) = text at plain
      unfold isPlain at plain
      unfold unquote
      split
      · next rest letters => simp [letters] at plain
      · rfl
    rw [same,if_pos plain]
  · cases simple

def validate (config : AutoCdcConfig) (tableName : String) : Except Error Unit := do
  if (trim chars config.source).isEmpty then
    throw (.io s!"table `{tableName}` AUTO CDC requires a non-empty `source`")
  if config.keys.isEmpty then
    throw (.io s!"table `{tableName}` AUTO CDC requires at least one key column")
  config.keys.forM fun key => do
    if (trim chars key).isEmpty then
      throw (.io s!"table `{tableName}` AUTO CDC key expressions must not be empty")
    if (simpleColumn chars key).isNone then
      throw (.io (s!"table `{tableName}` AUTO CDC key must be a plain column name, got `{key}` — " ++
        "the merge compares it against the value stored in the target, so only a stored column " ++
        "works"))
  let sequenceBy := config.sequenceBy
  if (trim chars sequenceBy).isEmpty then
    throw (.io s!"table `{tableName}` AUTO CDC requires `sequence_by`")
  if (simpleColumn chars sequenceBy).isNone then
    throw (.io (s!"table `{tableName}` AUTO CDC `sequence_by` must be a plain column name, got " ++
      s!"`{sequenceBy}` — the merge compares it against the sequence stored in the target, so " ++
      "only a stored column works"))
  if config.columnList.isSome && config.exceptColumnList.isSome then
    throw (.io s!"table `{tableName}` AUTO CDC cannot set both column_list and except_column_list")
  if config.ignoreNullUpdatesColumns.isSome && config.ignoreNullUpdatesExcept.isSome then
    throw (.io s!"table `{tableName}` AUTO CDC cannot set both ignore_null_updates column lists")

def requireColumn (expr what : String) : Except Error String :=
  match simpleColumn chars expr with
  | some name => .ok name
  | none => .error (.unsupported s!"AUTO CDC {what} must be a plain column name, got `{expr}`")

def resolveIn (columns : List String) (name : String) : Option String :=
  let wanted := (simpleColumn chars name).getD (trim chars name)
  columns.find? fun column => column.toLower == wanted.toLower

variable (config : AutoCdcConfig)

def selectedColumns (batchColumns : List String) : Except Error (List String) :=
  match config.columnList,config.exceptColumnList with
  | some list,_ =>
    if list.isEmpty then .error (.plan "AUTO CDC COLUMNS list must not be empty")
    else list.mapM fun column => match resolveIn chars batchColumns column with
      | some found => .ok found
      | none => .error (.plan s!"AUTO CDC COLUMNS references unknown column `{column}`")
  | none,some except =>
    let skip := except.map fun column => ((resolveIn chars batchColumns column).getD (trim chars column)).toLower
    let out := batchColumns.filter fun column => !skip.contains column.toLower
    if out.isEmpty then
      .error (.plan "AUTO CDC COLUMNS * EXCEPT would remove every column")
    else .ok out
  | none,none => .ok batchColumns

/-- The columns of the merged table, in order. Keys and sequence have to be among them. -/
def outputColumns (batchColumns : List String) : Except Error (List String) := do
  let selected ← selectedColumns chars config batchColumns
  config.keys.forM fun key => do
    let key ← requireColumn chars key "KEYS"
    if (resolveIn chars selected key).isNone then
      throw (.plan s!"AUTO CDC key column `{key}` must be part of the target columns")
  let seq ← requireColumn chars config.sequenceBy "SEQUENCE BY"
  if (resolveIn chars selected seq).isNone then
    throw (.plan (s!"AUTO CDC SEQUENCE BY column `{seq}` must be part of the target columns — " ++
      "the merge compares it against the sequence already stored in the target"))
  return selected

/-- The output columns, in lower case, that keep the target's value when the incoming one is
null. -/
def ignoreNullUpdateColumns (columns : List String) : Except Error (List String) :=
  let all := columns.map (·.toLower)
  match config.ignoreNullUpdatesColumns,config.ignoreNullUpdatesExcept with
  | some list,_ =>
    if list.any fun column => trim chars column == "*" then .ok all
    else list.mapM fun column => match resolveIn chars columns column with
      | some found => .ok found.toLower
      | none => .error
        (.plan s!"AUTO CDC IGNORE NULL UPDATES references unknown column `{column}`")
  | none,some except =>
    let skip := except.map fun column => ((resolveIn chars columns column).getD (trim chars column)).toLower
    .ok (all.filter fun column => !skip.contains column)
  | none,none => .ok []

section Resolution
variable {chars config}

lemma forM_eq_ok {items : List α} {check : α → Except Error PUnit} :
    items.forM check = .ok () ↔ ∀ item ∈ items, check item = .ok () := by
  induction items with
  | nil => simp [pure,Except.pure]
  | cons item rest ih =>
    change (check item >>= fun _ => rest.forM check) = _ ↔ _
    rw [bind_eq_ok,forall_mem_cons,← ih]
    exact ⟨fun ⟨_,now,later⟩ => ⟨now,later⟩,fun ⟨now,later⟩ => ⟨_,now,later⟩⟩

lemma resolveIn_some (plain : simpleColumn chars name = some name) :
    resolveIn chars columns name = some found ↔
    columns.find? (fun column => column.toLower == name.toLower) = some found := by
  unfold resolveIn
  rw [plain]
  rfl

lemma requireColumn_ok : requireColumn chars expr what = .ok name ↔ simpleColumn chars expr = some name := by
  unfold requireColumn
  cases simpleColumn chars expr <;> simp

lemma selectedColumns_first (selected : selectedColumns chars config names = .ok columns)
    {name found : String} (there : columns.find? (fun column => column.toLower == name.toLower) = some found) :
    names.find? (fun column => column.toLower == name.toLower) = some found := by
  unfold selectedColumns at selected
  have same := find?_some there
  have mem := mem_of_find?_eq_some there
  rw [beq_iff_eq] at same
  split at selected
  · split at selected
    · cases selected
    · -- A listed column is the first of the batch's that its name resolves to.
      obtain ⟨listed,_,resolved⟩ := mem_of_mapM_eq_ok selected mem
      split at resolved
      · next first =>
        cases resolved
        unfold resolveIn at first
        have match_ := find?_some first
        rw [beq_iff_eq] at match_
        simpa [← same,match_] using first
      · cases resolved
  · dsimp only at selected
    split at selected
    · cases selected
    · cases selected
      -- Columns of one name are skipped together.
      have kept := (mem_filter.mp mem).2
      rw [find?_filter] at there
      rw [← there]
      congr 1
      funext column
      by_cases equal : column.toLower = name.toLower
      · simp only [equal,← same,kept,beq_self_eq_true,and_self,decide_true]
      · simp [equal]
  · cases selected
    exact there

lemma outputColumns_ok (done : outputColumns chars config names = .ok columns) :
    selectedColumns chars config names = .ok columns ∧
    (∀ key ∈ config.keys, ∃ name found, simpleColumn chars key = some name ∧
      columns.find? (fun column => column.toLower == name.toLower) = some found) ∧
    ∃ name found, simpleColumn chars config.sequenceBy = some name ∧
      columns.find? (fun column => column.toLower == name.toLower) = some found := by
  unfold outputColumns at done
  rw [bind_eq_ok] at done
  obtain ⟨selected,selects,done⟩ := done
  rw [bind_eq_ok] at done
  obtain ⟨_,keys,done⟩ := done
  rw [bind_eq_ok] at done
  obtain ⟨seq,simple,done⟩ := done
  rw [requireColumn_ok] at simple
  split at done
  · simp [bind,Except.bind,throw,throwThe,MonadExceptOf.throw] at done
  next there =>
  obtain ⟨found,there⟩ := isSome_iff_exists.mp (isSome_iff_ne_none.mpr (by simpa using there))
  cases done
  refine ⟨selects,fun key mem => ?_,seq,found,simple,(resolveIn_some (simpleColumn_idem simple)).mp there⟩
  have checked := forM_eq_ok.mp keys key mem
  rw [bind_eq_ok] at checked
  obtain ⟨name,simple,checked⟩ := checked
  rw [requireColumn_ok] at simple
  split at checked
  · cases checked
  next there =>
  obtain ⟨found,there⟩ := isSome_iff_exists.mp (isSome_iff_ne_none.mpr (by simpa using there))
  exact ⟨name,found,simple,(resolveIn_some (simpleColumn_idem simple)).mp there⟩

end Resolution

end Names

open Keyed

/-- Where a value stands among those of its column. A column has values of one type. -/
def rank : Scalar → Lex (Int ⊕ String)
  | .int value => toLex (.inl value)
  | .text value => toLex (.inr value)

lemma rank_injective : Function.Injective rank := by
  rintro (one | one) (other | other) same
  · cases same
    rfl
  · cases same
  · cases same
  · cases same
    rfl

instance : LinearOrder Scalar := LinearOrder.lift' rank rank_injective

def gt : Option Scalar → Option Scalar → Option Bool
  | some one,some other => some (other < one)
  | _,_ => none

/-- `DESC` of the engine's `nulls_min` order: NULL comes last. -/
def descending : Option Scalar → Option Scalar → Ordering
  | none,none => .eq
  | none,some _ => .gt
  | some _,none => .lt
  | some one,some other => if other < one then .lt else if one < other then .gt else .eq

/-- The cell of a named column, for a schema in lower case. The engine lower-cases a bare name and
matches it exactly, so the statement does not plan where a source column has capitals. -/
def read (names : List String) (name : String) (row : Row) : Option Scalar :=
  (names.findIdx? fun column => column.toLower == name.toLower).bind row.cell

abbrev Evaluate := List String → String → Row → Option Bool

structure Statement where
  columns : List String
  keys : List String
  seq : String
  ignore : List String
  deletes : Option String
  truncates : Option String
  deriving DecidableEq, Repr

structure Scored where
  row : Row
  del : Bool
  trunc : Bool
  deriving DecidableEq, Repr

namespace Statement
variable (statement : Statement) (evaluate : Evaluate) (names : List String)

def boolExpr (expr : Option String) (row : Row) : Bool :=
  match expr with
  | none => false
  | some text => (evaluate names text row).getD false

def keyOf (columns : List String) (row : Row) : List (Option Scalar) :=
  statement.keys.map fun key => read columns key row

def seqOf (columns : List String) (row : Row) : Option Scalar := read columns statement.seq row

def scored (batch : List Row) : List Scored :=
  (batch.filter fun row => (statement.seqOf names row).isSome).map fun row =>
    { row
      del := boolExpr evaluate names statement.deletes row
      trunc := boolExpr evaluate names statement.truncates row }

def truncAt (scored : List Scored) : Option Scalar :=
  (scored.filterMap fun event =>
    if event.trunc then statement.seqOf names event.row else none).max?

def isPast (truncAt seq : Option Scalar) : Bool := truncAt.isNone || gt seq truncAt == some true

def tiebreak : List String :=
  statement.columns.filter fun column => column.toLower != statement.seq.toLower &&
    !(statement.keys.map (·.toLower)).contains column.toLower

def before (one other : Scored) : Bool :=
  let bySeq := descending (statement.seqOf names one.row) (statement.seqOf names other.row)
  let byDel := match one.del,other.del with
    | true,false => Ordering.lt
    | false,true => .gt
    | _,_ => .eq
  let byRest := statement.tiebreak.foldl (fun order column =>
    order.then (descending (read names column one.row) (read names column other.row))) .eq
  (bySeq.then (byDel.then byRest)).isLT

def latest (scored : List Scored) : List Scored :=
  firstPerKey (fun event => statement.keyOf names event.row) (statement.before names)
    (scored.filter fun event => !event.trunc &&
      isPast (statement.truncAt names scored) (statement.seqOf names event.row))

def live (scored : List Scored) (target : List Row) : List Row :=
  target.filter fun row => isPast (statement.truncAt names scored) (statement.seqOf statement.columns row)

def kept (latest : List Scored) (live : List Row) : List Row :=
  (live.filter fun row => !latest.any fun event =>
    decide (statement.keyOf names event.row = statement.keyOf statement.columns row) &&
      gt (statement.seqOf names event.row) (statement.seqOf statement.columns row) ==
        some true).map fun row => statement.columns.map fun column => read statement.columns column row

/-- One column of the row an event leaves; an ignored null takes the matched row's value. -/
def projectCell (event : Row) (base : Option Row) (column : String) : Option Scalar :=
  let value := read names column event
  if statement.ignore.contains column.toLower then
    match base with
    | some row => if value.isNone && (statement.seqOf statement.columns row).isSome
      then read statement.columns column row else value
    | none => value
  else value

def project (event : Row) (base : Option Row) : Row :=
  statement.columns.map (statement.projectCell names event base)

def applied (latest : List Scored) (live : List Row) : List Row :=
  (leftJoin (fun event row => decide (statement.keyOf statement.columns row = statement.keyOf names event.row))
    latest live).filterMap fun (event,base) =>
      let stored := base.bind (statement.seqOf statement.columns)
      if !event.del && (stored.isNone || gt (statement.seqOf names event.row) stored == some true)
      then some (statement.project names event.row base) else none

def run (batch target : List Row) : List Row :=
  let scored := statement.scored evaluate names batch
  let latest := statement.latest names scored
  let live := statement.live names scored target
  statement.kept names latest live ++ statement.applied names latest live

end Statement

structure CdcMerge where
  columns : List String
  sequenceColumn : String
  statement : Statement
  deriving DecidableEq, Repr

section
variable (chars : CharClasses) (config : AutoCdcConfig)

def condition (expr : Option String) : Option String :=
  (expr.map (trim chars)).filter fun text => !text.isEmpty

def buildMergeSql (columns : List String) : Except Error Statement := do
  validate chars config "auto cdc"
  if columns.isEmpty then throw (.plan "AUTO CDC merge requires at least one output column")
  let keys ← config.keys.mapM fun key => requireColumn chars key "KEYS"
  let seq ← requireColumn chars config.sequenceBy "SEQUENCE BY"
  let ignore ← ignoreNullUpdateColumns chars config columns
  return {
    columns
    keys
    seq
    ignore
    deletes := condition chars config.applyAsDeletes
    truncates := condition chars config.applyAsTruncates}

def CdcMerge.new (batchSchema : List Field) : Except Error CdcMerge := do
  let names := batchSchema.map (·.name)
  let columns ← outputColumns chars config names
  let sequenceBy := config.sequenceBy
  let sequenceColumn ← match resolveIn chars columns sequenceBy with
    | some found => pure found
    | none => throw (.plan
      s!"AUTO CDC SEQUENCE BY column `{sequenceBy}` is not in the target columns")
  let statement ← buildMergeSql chars config columns
  columns.forM fun column =>
    if names.contains column then pure ()
    else throw (.plan s!"AUTO CDC column `{column}` is not in the source")
  return {columns,sequenceColumn,statement}

end

namespace CdcMerge
variable (merge : CdcMerge) (evaluate : Evaluate)

def rejectNullSequence (batch : List RecordBatch) : Except Error Unit :=
  let nulls := (batch.filterMap fun one => (one.indexOf merge.sequenceColumn).map fun index =>
    (one.rows.filter fun row => (row.cell index).isNone).length).sum
  if 0 < nulls then
    let column := merge.sequenceColumn
    .error (.execution (s!"AUTO CDC: {nulls} row(s) in this micro-batch have a NULL `{column}` — " ++
      "the merge orders every row by it, so a row without one cannot be applied"))
  else .ok ()

def apply (batch : List RecordBatch) (target : List Row) : Except Error (List Row) := do
  merge.rejectNullSequence batch
  let names := (batch.head?.map fun one => one.schema.map (·.name)).getD []
  return merge.statement.run evaluate names (batch.flatMap (·.rows)) target

end CdcMerge
end Oxidant.AutoCdc
