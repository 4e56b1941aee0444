import Mathlib.Data.List.Dedup
import Mathlib.Data.List.Sort
import Oxidant.Lib.Columns

/-! The provider that applies an access decision to the scans of a table: it shows the authorized
columns, reads what the row filter needs beside them, and drops rows and extra columns above the
inner scan. Columns are found by name, rows are lists of cells in schema order. -/
namespace Oxidant.LakeFormation
open Lib.Columns

structure TableAccess where
  authorizedColumns : Option (List String)
  rowFilter : Option String
  enforced : Bool
  deriving DecidableEq, Repr

def TableAccess.restrictsScan (access : TableAccess) : Bool :=
  access.authorizedColumns.isSome || access.rowFilter.isSome

/-- A predicate on one row: a row passes on `yes`; `no` stands for false and for NULL. -/
inductive Verdict where
  | yes
  | no
  | fault
  deriving DecidableEq, Repr

/-- A compiled-on-demand expression of the engine. It reads the columns it names and no others. -/
structure Expr (V : Type) where
  columnRefs : List String
  eval : (String → Option V) → Verdict
  reads : ∀ one other, (∀ name ∈ columnRefs, one name = other name) → eval one = eval other

/-- The engine's expression parser, which resolves names against the schema it is given. -/
structure SessionState (V : Type) where
  createLogicalExpr : List String → String → Option (Expr V)
  resolves : ∀ schema sql expr, createLogicalExpr schema sql = some expr →
    ∀ name ∈ expr.columnRefs, name ∈ schema

variable {V : Type}

def Expr.passes (expr : Expr V) (schema : List String) (row : List V) : Bool :=
  expr.eval (cell schema row) = .yes

def Expr.Total (expr : Expr V) : Prop := ∀ env, expr.eval env ≠ .fault

/-- The table under a provider, with distinct column names, and the contract of its scans. -/
structure InnerProvider (V : Type) where
  schema : List String
  distinct : schema.Nodup
  rows : List (List V)
  width : ∀ row ∈ rows, row.length = schema.length
  scan : List Nat → List (Expr V) → Option Nat → List (List V)
  scan_all : ∀ projection filters, (∀ index ∈ projection, index < schema.length) →
    (∀ expr ∈ filters, expr.Total ∧ ∀ name ∈ expr.columnRefs, name ∈ schema) →
    (scan projection filters none).Perm
      ((rows.filter fun row => filters.all fun expr => expr.passes schema row).map (pick projection))
  scan_some : ∀ projection filters limit, (∀ index ∈ projection, index < schema.length) →
    (∀ expr ∈ filters, expr.Total ∧ ∀ name ∈ expr.columnRefs, name ∈ schema) →
    (scan projection filters (some limit)).Subperm (scan projection filters none) ∧
      min limit (scan projection filters none).length ≤
        (scan projection filters (some limit)).length

/-- Why a provider or its scan is refused; an index out of bounds is a panic. -/
inductive ProviderError where
  | noReadableColumn (table : String)
  | unparsedFilter (sql table : String)
  | unknownColumn (sql table column : String)
  | uncompiledFilter (table : String)
  | unknownField (column : String)
  | indexOutOfBounds
  | evaluation
  deriving DecidableEq, Repr

def asciiLower (name : String) : List Char := name.toList.map Char.toLower

def indexOfIgnoreAsciiCase (schema : List String) (name : String) : Option Nat :=
  (schema.findIdx? fun field => field = name).or (schema.findIdx? fun field => asciiLower field = asciiLower name)

def isWhitespace (char : Char) : Bool :=
  let code := char.toNat
  (9 ≤ code && code ≤ 13) || code = 0x20 || code = 0x85 || code = 0xa0 || code = 0x1680 ||
    (0x2000 ≤ code && code ≤ 0x200a) || code = 0x2028 || code = 0x2029 || code = 0x202f ||
    code = 0x205f || code = 0x3000

def isBlank (sql : String) : Bool := sql.toList.all isWhitespace

structure LakeFormationTableProvider (V : Type) where
  inner : InnerProvider V
  schema : List String
  authorizedIndices : List Nat
  rowFilter : Option (Expr V)
  filterIndices : List Nat
  tableName : String

structure ExecutionPlan (V : Type) where
  schema : List String
  rows : List (List V)
  deriving DecidableEq, Repr

namespace LakeFormationTableProvider

def authorized (schema : List String) : Option (List String) → List Nat
  | none => List.range schema.length
  | some allowed => (schema.zipIdx.filter fun entry => asciiLower entry.1 ∈ allowed.map asciiLower).map Prod.snd

def filterIndex (schema : List String) (sql tableName name : String) : Except ProviderError Nat :=
  match indexOfIgnoreAsciiCase schema name with
  | some index => .ok index
  | none => .error (.unknownColumn sql tableName name)

def parseFilter (state : SessionState V) (schema : List String) (tableName : String) :
    Option String → Except ProviderError (Option (Expr V) × List Nat)
  | none => .ok (none,[])
  | some sql =>
    if isBlank sql then .ok (none,[])
    else match state.createLogicalExpr schema sql with
      | none => .error (.unparsedFilter sql tableName)
      | some expr => do
        let indices ← expr.columnRefs.mapM (filterIndex schema sql tableName)
        return (some expr,(indices.insertionSort (· ≤ ·)).dedup)

def tryNew (state : SessionState V) (inner : InnerProvider V) (access : TableAccess)
    (tableName : String) : Except ProviderError (LakeFormationTableProvider V) := do
  let authorizedIndices := authorized inner.schema access.authorizedColumns
  if authorizedIndices.isEmpty then .error (.noReadableColumn tableName)
  else do
    let (rowFilter,filterIndices) ← parseFilter state inner.schema tableName access.rowFilter
    return {
      inner
      schema := pick authorizedIndices inner.schema
      authorizedIndices
      rowFilter
      filterIndices
      tableName}

def isNoop (access : TableAccess) : Bool := !access.enforced || !access.restrictsScan

def addMissing (projection : List Nat) (indices : List Nat) : List Nat :=
  indices.foldl (fun known index => if index ∈ known then known else known ++ [index]) projection

/-- Keep the rows that pass; one row on which the predicate fails is an error of the whole scan. -/
def filterExec (expr : Expr V) (plan : ExecutionPlan V) : Except ProviderError (ExecutionPlan V) :=
  if plan.rows.any fun row => expr.eval (cell plan.schema row) = .fault then .error .evaluation
  else .ok {plan with rows := plan.rows.filter fun row => expr.passes plan.schema row}

def applyFilter (provider : LakeFormationTableProvider V) (plan : ExecutionPlan V) :
    Except ProviderError (ExecutionPlan V) :=
  match provider.rowFilter with
  | none => .ok plan
  | some expr =>
    if expr.columnRefs.all fun name => name ∈ plan.schema then filterExec expr plan
    else .error (.uncompiledFilter provider.tableName)

def alreadyShaped (scanned output : List String) : Bool :=
  scanned.length = output.length && (scanned.zip output).all fun (field,want) => field = want

def indexOf (schema : List String) (name : String) : Except ProviderError Nat :=
  match schema.idxOf? name with
  | some index => .ok index
  | none => .error (.unknownField name)

def shape (output : List String) (plan : ExecutionPlan V) : Except ProviderError (ExecutionPlan V) :=
  if alreadyShaped plan.schema output then .ok plan
  else do
    let indices ← output.mapM (indexOf plan.schema)
    return {schema := output,rows := plan.rows.map (pick indices)}

def indexed {α : Type} (items : List α) (index : Nat) : Except ProviderError α :=
  match items[index]? with
  | some item => .ok item
  | none => .error .indexOutOfBounds

def scan (provider : LakeFormationTableProvider V) (projection : Option (List Nat))
    (filters : List (Expr V)) (limit : Option Nat) : Except ProviderError (ExecutionPlan V) := do
  let requested := projection.getD (List.range provider.schema.length)
  let translated ← requested.mapM (indexed provider.authorizedIndices)
  let innerProjection := addMissing translated provider.filterIndices
  -- a limit below the row filter would stop the scan before enough rows pass
  let innerLimit := if provider.rowFilter.isSome then none else limit
  let plan ← provider.applyFilter {
    schema := pick innerProjection provider.inner.schema
    rows := provider.inner.scan innerProjection filters innerLimit}
  let output ← requested.mapM (indexed provider.schema)
  shape output plan

end LakeFormationTableProvider

inductive TableProvider (V : Type) where
  | plain (inner : InnerProvider V)
  | restricted (provider : LakeFormationTableProvider V)

def enforce (state : SessionState V) (name : String) (provider : InnerProvider V)
    (access : Option TableAccess) : Except ProviderError (TableProvider V) :=
  match access with
  | none => .ok (.plain provider)
  | some access =>
    if LakeFormationTableProvider.isNoop access then .ok (.plain provider)
    else do return .restricted (← LakeFormationTableProvider.tryNew state provider access name)

end Oxidant.LakeFormation
