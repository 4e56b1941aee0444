import Mathlib.Data.Multiset.Filter
import Oxidant.LakeFormation.Provider
import Oxidant.Lib.Traverse

/-! Data that an access decision hides does not change what a governed scan returns, as long as the
row filter can be evaluated on every row. -/
namespace Oxidant.LakeFormation
open List hiding all filter
open Lib Lib.Columns

variable {V : Type}

structure Request (V : Type) where
  projection : Option (List Nat)
  filters : List (Expr V)

def Request.columns (request : Request V) (schema : List String) : List Nat :=
  request.projection.getD (List.range schema.length)

structure Request.Fits (request : Request V) (schema : List String) : Prop where
  inside : ∀ index ∈ request.columns schema, index < schema.length
  total : ∀ expr ∈ request.filters, expr.Total
  over_ : ∀ expr ∈ request.filters, ∀ name ∈ expr.columnRefs, name ∈ schema

namespace TableAccess

def shows (access : TableAccess) (name : String) : Bool :=
  access.authorizedColumns.all fun listed => listed.any fun column => asciiLower column = asciiLower name

/-- What the row filter of a decision says of a row; without a filter every row passes. -/
def judges (access : TableAccess) (state : SessionState V) (schema : List String) (row : List V) : Verdict :=
  match access.rowFilter with
  | none => .yes
  | some sql =>
    if isBlank sql then .yes
    else match state.createLogicalExpr schema sql with
      | none => .no
      | some expr => expr.eval (cell schema row)

def part (access : TableAccess) (schema : List String) (row : List V) : List V :=
  ((schema.zip row).filter fun entry => access.shows entry.1).map Prod.snd

def view (access : TableAccess) (state : SessionState V) (table : InnerProvider V) : Multiset (List V) :=
  ↑((table.rows.filter fun row => access.judges state table.schema row = .yes).map (access.part table.schema))

def answer (access : TableAccess) (state : SessionState V) (table : InnerProvider V)
    (request : Request V) : Multiset (List V) :=
  ((access.view state table).filter fun row =>
    (request.filters.all fun expr => expr.passes (table.schema.filter access.shows) row) = true).map
      (pick (request.columns (table.schema.filter access.shows)))

/-- The row filter can be evaluated on every row that the predicates of a request let through. -/
def Evaluates (access : TableAccess) (state : SessionState V) (table : InnerProvider V)
    (request : Request V) : Prop :=
  ∀ row ∈ table.rows, (request.filters.all fun expr => expr.passes table.schema row) = true →
    access.judges state table.schema row ≠ .fault

lemma authorized_eq (access : TableAccess) :
    LakeFormationTableProvider.authorized schema access.authorizedColumns = whose access.shows schema := by
  unfold LakeFormationTableProvider.authorized whose shows
  cases access.authorizedColumns with
  | none => simp [range_eq_range']
  | some allowed =>
    refine congrArg (List.map Prod.snd) (filter_congr ?_)
    intro entry _
    rw [Bool.eq_iff_iff]
    simp

end TableAccess

namespace LakeFormationTableProvider
variable {state : SessionState V} {access : TableAccess} {inner : InnerProvider V}
  {tableName : String} {provider : LakeFormationTableProvider V}

lemma mem_addMissing {projection indices : List Nat} {index : Nat} :
    index ∈ addMissing projection indices ↔ index ∈ projection ∨ index ∈ indices := by
  unfold addMissing
  induction indices generalizing projection with
  | nil => simp
  | cons first rest ih =>
    rw [foldl_cons,ih]
    split
    · next known =>
      constructor
      · rintro (there | later)
        · exact .inl there
        · exact .inr (mem_cons_of_mem _ later)
      · rintro (there | later)
        · exact .inl there
        · rcases mem_cons.mp later with rfl | later
          · exact .inl known
          · exact .inr later
    · simp [or_assoc]

lemma addMissing_eq (projection) : ∃ extra, addMissing projection indices = projection ++ extra := by
  unfold addMissing
  induction indices generalizing projection with
  | nil => exact ⟨[],by simp⟩
  | cons first rest ih =>
    rw [foldl_cons]
    split
    · exact ih projection
    · obtain ⟨extra,same⟩ := ih (projection ++ [first])
      exact ⟨first::extra,by rw [same]; simp⟩

structure FilterOf (access : TableAccess) (state : SessionState V) (schema : List String)
    (rowFilter : Option (Expr V)) (filterIndices : List Nat) : Prop where
  absent : rowFilter = none → ∀ row, access.judges state schema row = .yes
  judged : ∀ expr, rowFilter = some expr → ∀ row,
    access.judges state schema row = expr.eval (cell schema row)
  resolved : ∀ expr, rowFilter = some expr → ∀ name ∈ expr.columnRefs,
    name ∈ schema ∧ schema.idxOf name ∈ filterIndices
  inside : ∀ index ∈ filterIndices, index < schema.length

lemma indexOfIgnoreAsciiCase_of_mem {schema : List String} {name : String} (mem : name ∈ schema) :
    indexOfIgnoreAsciiCase schema name = some (schema.idxOf name) := by
  have found : (schema.findIdx? fun field => decide (field = name)) = some (schema.idxOf name) := by
    rw [findIdx?_eq_some_iff_findIdx_eq]
    refine ⟨idxOf_lt_length_of_mem mem,?_⟩
    congr 1
  unfold indexOfIgnoreAsciiCase
  rw [found]
  rfl

lemma filterOf_parseFilter {schema : List String} {rowFilter : Option (Expr V)} {filterIndices : List Nat}
    (parsed : parseFilter state schema tableName access.rowFilter = .ok (rowFilter,filterIndices)) :
    FilterOf access state schema rowFilter filterIndices := by
  unfold parseFilter at parsed
  cases given : access.rowFilter with
  | none =>
    simp only [given,Except.ok.injEq,Prod.mk.injEq] at parsed
    obtain ⟨rfl,rfl⟩ := parsed
    exact ⟨fun _ row => by simp [TableAccess.judges,given],nofun,nofun,by simp⟩
  | some sql =>
    simp only [given] at parsed
    by_cases blank : isBlank sql = true
    · rw [if_pos blank] at parsed
      obtain ⟨rfl,rfl⟩ := Prod.mk.inj (Except.ok.inj parsed)
      exact ⟨fun _ row => by simp [TableAccess.judges,given,blank],nofun,nofun,by simp⟩
    · rw [if_neg blank] at parsed
      cases read : state.createLogicalExpr schema sql with
      | none => simp [read] at parsed
      | some expr =>
        have known := state.resolves schema sql expr read
        have places : expr.columnRefs.mapM (filterIndex schema sql tableName) =
            .ok (expr.columnRefs.map fun name => schema.idxOf name) := by
          rw [mapM_eq_ok,forall₂_map_right_iff,forall₂_same]
          intro name mem
          unfold filterIndex
          rw [indexOfIgnoreAsciiCase_of_mem (known name mem)]
        simp only [read,places,bind,Except.bind,pure,Except.pure,Except.ok.injEq,Prod.mk.injEq] at parsed
        obtain ⟨rfl,rfl⟩ := parsed
        refine ⟨nofun,?_,?_,?_⟩
        · rintro _ ⟨⟩ row
          simp [TableAccess.judges,given,blank,read]
        · rintro _ ⟨⟩ name mem
          exact ⟨known name mem,by simpa using ⟨name,mem,rfl⟩⟩
        · intro index mem
          obtain ⟨name,named,rfl⟩ : ∃ name ∈ expr.columnRefs, schema.idxOf name = index := by simpa using mem
          exact idxOf_lt_length_of_mem (known name named)

lemma tryNew_eq_ok (made : tryNew state inner access tableName = .ok provider) :
    provider.inner = inner ∧ provider.authorizedIndices = whose access.shows inner.schema ∧
      provider.schema = inner.schema.filter access.shows ∧
      FilterOf access state inner.schema provider.rowFilter provider.filterIndices := by
  unfold tryNew at made
  simp only at made
  split at made
  · cases made
  · cases parsed : parseFilter state inner.schema tableName access.rowFilter with
    | error fault => simp [parsed,bind,Except.bind] at made
    | ok filter =>
      obtain ⟨rowFilter,filterIndices⟩ := filter
      simp only [parsed,bind,Except.bind,pure,Except.pure,Except.ok.injEq] at made
      subst made
      refine ⟨rfl,TableAccess.authorized_eq access,?_,filterOf_parseFilter parsed⟩
      simp only [TableAccess.authorized_eq]
      exact pick_whose_self _ _

lemma mapM_indexed {α : Type} {items : List α} {requested : List Nat}
    (inside : ∀ index ∈ requested, index < items.length) :
    requested.mapM (indexed items) = .ok (pick requested items) := by
  rw [mapM_eq_ok]
  induction requested with
  | nil => exact .nil
  | cons index rest ih =>
    have here : index < items.length := inside index mem_cons_self
    rw [pick_cons here]
    refine .cons ?_ (ih fun other mem => inside other (mem_cons_of_mem _ mem))
    simp [indexed,here]

lemma alreadyShaped_iff : alreadyShaped scanned output = true ↔ scanned = output := by
  unfold alreadyShaped
  induction scanned generalizing output with
  | nil => cases output <;> simp
  | cons field rest ih =>
    cases output with
    | nil => simp
    | cons want others =>
      have tail := @ih others
      simp only [length_cons,Nat.add_right_cancel_iff,zip_cons_cons,all_cons,
        Bool.and_eq_true,decide_eq_true_eq,List.cons.injEq,← tail]
      exact and_left_comm

section Scan
variable {schema : List String} {wanted : List Nat}

lemma shape_eq (distinct : schema.Nodup) (inside : ∀ index ∈ all, index < schema.length)
    {extra : List Nat} (split : all = wanted ++ extra) {rows : List (List V)}
    (picked : ∀ row ∈ rows, ∃ full : List V, full.length = schema.length ∧ row = pick all full) :
    shape (pick wanted schema) ⟨pick all schema,rows⟩ = .ok ⟨pick wanted schema,
      rows.map (pick ((pick wanted schema).map (pick all schema).idxOf))⟩ := by
  have among : ∀ index ∈ wanted, index ∈ all := fun index mem => split ▸ mem_append_left _ mem
  unfold shape
  by_cases shaped : alreadyShaped (pick all schema) (pick wanted schema) = true
  · rw [if_pos shaped]
    rw [alreadyShaped_iff] at shaped
    have lengths := congrArg List.length shaped
    rw [length_pick inside,length_pick fun index mem => inside index (among index mem),
      split,length_append] at lengths
    have none_ : extra = [] := eq_nil_of_length_eq_zero (by omega)
    have unchanged : rows.map (pick ((pick wanted schema).map (pick all schema).idxOf)) = rows := by
      refine (map_congr_left ?_).trans (map_id rows)
      intro row mem
      obtain ⟨full,width,rfl⟩ := picked row mem
      rw [pick_idxOf distinct width inside among,split,none_,append_nil,id]
    rw [unchanged,shaped]
  · rw [if_neg shaped]
    have places : (pick wanted schema).mapM (indexOf (pick all schema)) =
        .ok ((pick wanted schema).map (pick all schema).idxOf) := by
      rw [mapM_eq_ok,forall₂_map_right_iff,forall₂_same]
      intro name mem
      obtain ⟨index,chosen,there⟩ := mem_pick.mp mem
      have known : name ∈ pick all schema := mem_pick.mpr ⟨index,among index chosen,there⟩
      unfold indexOf
      cases found : (pick all schema).idxOf? name with
      | none => exact absurd known (idxOf?_eq_none_iff.mp found)
      | some place => rw [idxOf_eq_getD_idxOf?,found,Option.getD_some]
    simp only [places,bind,Except.bind,pure,Except.pure]

lemma passes_pick (distinct : schema.Nodup) (inside : ∀ index ∈ all, index < schema.length)
    {expr : Expr V} (named : ∀ name ∈ expr.columnRefs, name ∈ pick all schema) {row : List V}
    (width : row.length = schema.length) :
    expr.eval (cell (pick all schema) (pick all row)) = expr.eval (cell schema row) :=
  expr.reads _ _ fun name mem => cell_pick distinct width inside (named name mem)

lemma applyFilter_eq (made : FilterOf access state schema provider.rowFilter provider.filterIndices)
    (distinct : schema.Nodup) (inside : ∀ index ∈ all, index < schema.length)
    (read : ∀ index ∈ provider.filterIndices, index ∈ all) {rows : List (List V)}
    (picked : ∀ row ∈ rows, ∃ full : List V, full.length = schema.length ∧ row = pick all full ∧
      access.judges state schema full ≠ .fault) :
    provider.applyFilter ⟨pick all schema,rows⟩ = .ok ⟨pick all schema,rows.filter fun row =>
      provider.rowFilter.all fun expr => expr.passes (pick all schema) row⟩ := by
  unfold applyFilter
  cases given : provider.rowFilter with
  | none => simp
  | some expr =>
    have named : ∀ name ∈ expr.columnRefs, name ∈ pick all schema := by
      intro name mem
      obtain ⟨known,place⟩ := made.resolved expr given name mem
      refine mem_pick.mpr ⟨_,read _ place,?_⟩
      rw [getElem?_eq_getElem (idxOf_lt_length_of_mem known),getElem_idxOf]
    have calm : (rows.any fun row =>
        decide (expr.eval (cell (pick all schema) row) = .fault)) = false := by
      rw [any_eq_false]
      intro row mem
      obtain ⟨full,width,rfl,fine⟩ := picked row mem
      rw [made.judged expr given] at fine
      simpa [passes_pick distinct inside named width] using fine
    have compiled : (expr.columnRefs.all fun name => decide (name ∈ pick all schema)) = true := by
      simpa using named
    simp only [compiled,if_true,filterExec,calm,Bool.false_eq_true,if_false,Option.all_some]

end Scan

def reads (provider : LakeFormationTableProvider V) (request : Request V) : List Nat :=
  addMissing (pick (request.columns provider.schema) provider.authorizedIndices) provider.filterIndices

section Serve
variable {request : Request V}

section
variable (made : tryNew state inner access tableName = .ok provider)
include made

lemma wanted_inside (mem : index ∈ pick (request.columns provider.schema) provider.authorizedIndices) :
    index < inner.schema.length := by
  obtain ⟨_,indices,_,_⟩ := tryNew_eq_ok made
  rw [indices] at mem
  obtain ⟨place,_,found⟩ := mem_pick.mp mem
  exact whose_inside (mem_of_getElem? found)

lemma reads_inside {index : Nat} (mem : index ∈ provider.reads request) : index < inner.schema.length := by
  rcases mem_addMissing.mp mem with wanted | filtered
  · exact wanted_inside made wanted
  · exact (tryNew_eq_ok made).2.2.2.inside index filtered

lemma length_authorized : provider.authorizedIndices.length = provider.schema.length := by
  obtain ⟨_,indices,schema,_⟩ := tryNew_eq_ok made
  rw [indices,schema,← pick_whose_self,length_pick fun index => whose_inside]

lemma output_eq (places) :
    pick places provider.schema = pick (pick places provider.authorizedIndices) inner.schema := by
  obtain ⟨_,indices,schema,_⟩ := tryNew_eq_ok made
  rw [indices,schema,← pick_whose_self,pick_pick fun index => whose_inside]

lemma filters_known (fits : request.Fits provider.schema) :
    ∀ expr ∈ request.filters, expr.Total ∧ ∀ name ∈ expr.columnRefs, name ∈ inner.schema := by
  intro expr there
  refine ⟨fits.total expr there,fun name named => ?_⟩
  have shown := fits.over_ expr there name named
  rw [(tryNew_eq_ok made).2.2.1] at shown
  exact (mem_filter.mp shown).1

lemma picked_of_scan (fits : request.Fits provider.schema) {row : List V}
    (mem : row ∈ inner.scan (provider.reads request) request.filters limit) :
    ∃ full ∈ inner.rows, (request.filters.all fun expr => expr.passes inner.schema full) = true ∧
      row = pick (provider.reads request) full := by
  have bound : ∀ index ∈ provider.reads request, index < inner.schema.length :=
    fun index => reads_inside made
  have known := filters_known made fits
  have unlimited : row ∈ inner.scan (provider.reads request) request.filters none := by
    cases limit with
    | none => exact mem
    | some limit => exact (inner.scan_some _ _ limit bound known).1.subset mem
  obtain ⟨full,kept,rfl⟩ := mem_map.mp ((inner.scan_all _ _ bound known).subset unlimited)
  obtain ⟨there,passes⟩ := mem_filter.mp kept
  exact ⟨full,there,passes,rfl⟩

lemma scan_eq (fits : request.Fits provider.schema) (calm : access.Evaluates state inner request) :
    provider.scan request.projection request.filters limit =
      .ok ⟨pick (request.columns provider.schema) provider.schema,
        ((inner.scan (provider.reads request) request.filters
              (if provider.rowFilter.isSome then none else limit)).filter fun row =>
            provider.rowFilter.all fun expr => expr.passes (pick (provider.reads request) inner.schema) row).map
          (pick ((pick (request.columns provider.schema) provider.schema).map
                (pick (provider.reads request) inner.schema).idxOf))⟩ := by
  obtain ⟨rfl,_,_,filter⟩ := tryNew_eq_ok made
  have bound : ∀ index ∈ provider.reads request, index < provider.inner.schema.length :=
    fun index => reads_inside made
  obtain ⟨extra,split⟩ := addMissing_eq (pick (request.columns provider.schema) provider.authorizedIndices)
  unfold scan
  have translated := @mapM_indexed _ provider.authorizedIndices (request.columns provider.schema)
    (length_authorized made ▸ fits.inside)
  have output := @mapM_indexed _ provider.schema (request.columns provider.schema) fits.inside
  simp only [Request.columns] at translated output
  simp only [translated,output,bind,Except.bind]
  have filtered := @applyFilter_eq V state access provider provider.inner.schema
    (provider.reads request) filter provider.inner.distinct bound
    (fun index mem => mem_addMissing.mpr (.inr mem))
    (provider.inner.scan (provider.reads request) request.filters
      (if provider.rowFilter.isSome then none else limit)) ?_
  · simp only [reads,Request.columns] at filtered
    rw [filtered]
    have shaped := @shape_eq V provider.inner.schema _ (provider.reads request)
      provider.inner.distinct bound extra split
    have named := output_eq made (request.columns provider.schema)
    simp only [reads,Request.columns] at named shaped ⊢
    rw [named]
    apply shaped
    intro row mem
    obtain ⟨full,there,_,rfl⟩ := picked_of_scan made fits (mem_filter.mp mem).1
    exact ⟨full,provider.inner.width full there,rfl⟩
  · intro row mem
    obtain ⟨full,there,passes,rfl⟩ := picked_of_scan made fits mem
    exact ⟨full,provider.inner.width full there,rfl,calm full there passes⟩

lemma passes_part (fits : request.Fits provider.schema) {row : List V} (width : row.length = inner.schema.length) :
    (request.filters.all fun expr =>
      expr.passes (inner.schema.filter access.shows) (access.part inner.schema row)) =
      request.filters.all fun expr => expr.passes inner.schema row := by
  obtain ⟨_,_,schema,_⟩ := tryNew_eq_ok made
  rw [Bool.eq_iff_iff,all_eq_true,all_eq_true]
  refine forall₂_congr fun expr mem => ?_
  have named := fits.over_ expr mem
  rw [schema,← pick_whose_self] at named
  unfold Expr.passes TableAccess.part
  rw [← pick_whose _ width,← pick_whose_self,passes_pick inner.distinct (fun index => whose_inside) named width]

lemma passes_reads {row : List V} (width : row.length = inner.schema.length) :
    (provider.rowFilter.all
        fun expr => expr.passes (pick (provider.reads request) inner.schema) (pick (provider.reads request) row)) =
      decide (access.judges state inner.schema row = .yes) := by
  obtain ⟨_,_,_,filter⟩ := tryNew_eq_ok made
  cases given : provider.rowFilter with
  | none => simp [filter.absent given row]
  | some expr =>
    have named : ∀ name ∈ expr.columnRefs, name ∈ pick (provider.reads request) inner.schema := by
      intro name mem
      obtain ⟨known,place⟩ := filter.resolved expr given name mem
      refine mem_pick.mpr ⟨_,mem_addMissing.mpr (.inr place),?_⟩
      rw [getElem?_eq_getElem (idxOf_lt_length_of_mem known),getElem_idxOf]
    rw [Option.all_some,filter.judged expr given,Expr.passes,
      passes_pick inner.distinct (fun index => reads_inside made) named width]

lemma unlimited_eq (fits : request.Fits provider.schema) :
    (↑(((inner.scan (provider.reads request) request.filters none).filter fun row =>
            provider.rowFilter.all fun expr => expr.passes (pick (provider.reads request) inner.schema) row).map
          (pick ((pick (request.columns provider.schema) provider.schema).map
                (pick (provider.reads request) inner.schema).idxOf))) : Multiset (List V)) =
      access.answer state inner request := by
  obtain ⟨_,indices,schema,_⟩ := tryNew_eq_ok made
  have bound : ∀ index ∈ provider.reads request, index < inner.schema.length :=
    fun index => reads_inside made
  have known := filters_known made fits
  have all := ((inner.scan_all _ _ bound known).filter fun row =>
    provider.rowFilter.all fun expr => expr.passes (pick (provider.reads request) inner.schema) row).map
    (pick ((pick (request.columns provider.schema) provider.schema).map
      (pick (provider.reads request) inner.schema).idxOf))
  rw [Multiset.coe_eq_coe.mpr all]
  unfold TableAccess.answer TableAccess.view
  rw [Multiset.filter_coe,Multiset.map_coe,filter_map,filter_map,map_map,map_map,filter_filter,filter_filter]
  congr 1
  have same : (inner.rows.filter fun row =>
      ((fun row => provider.rowFilter.all fun expr =>
        expr.passes (pick (provider.reads request) inner.schema) row) ∘ pick (provider.reads request)) row &&
        request.filters.all fun expr => expr.passes inner.schema row) =
      inner.rows.filter fun row =>
        ((fun row => decide ((request.filters.all fun expr =>
          expr.passes (inner.schema.filter access.shows) row) = true)) ∘ access.part inner.schema) row &&
          decide (access.judges state inner.schema row = .yes) := by
    apply filter_congr
    intro row mem
    have width := inner.width row mem
    simp only [Function.comp_apply]
    rw [passes_reads made width,passes_part made fits width,Bool.decide_eq_true,Bool.and_comm]
  rw [same]
  apply map_congr_left
  intro row mem
  have width := inner.width row (mem_filter.mp mem).1
  have among : ∀ index ∈ pick (request.columns provider.schema) provider.authorizedIndices,
      index ∈ provider.reads request := fun index wanted => mem_addMissing.mpr (.inl wanted)
  simp only [Function.comp_apply]
  rw [output_eq made,pick_idxOf inner.distinct width bound among,← schema,indices]
  unfold TableAccess.part
  rw [← pick_whose _ width,pick_pick fun index mem => width ▸ whose_inside mem]

end

def Serves (provider : LakeFormationTableProvider V) (request : Request V) (names : List String)
    (bag : Multiset (List V)) : Prop :=
  (∃ plan, provider.scan request.projection request.filters none = .ok plan ∧
    plan.schema = names ∧ (↑plan.rows : Multiset (List V)) = bag) ∧
  ∀ limit, ∃ plan, provider.scan request.projection request.filters (some limit) = .ok plan ∧
    plan.schema = names ∧ (↑plan.rows : Multiset (List V)) ≤ bag ∧
    min limit bag.card ≤ plan.rows.length

lemma serves_answer (made : tryNew state inner access tableName = .ok provider)
    (fits : request.Fits provider.schema) (calm : access.Evaluates state inner request) :
    provider.Serves request (pick (request.columns provider.schema) provider.schema)
      (access.answer state inner request) := by
  have whole := unlimited_eq made fits
  constructor
  · refine ⟨_,scan_eq made fits calm,rfl,?_⟩
    rw [ite_self]
    exact whole
  · intro limit
    refine ⟨_,scan_eq made fits calm,rfl,?_⟩
    rw [← whole]
    cases given : provider.rowFilter with
    | some expr => exact ⟨le_rfl,min_le_right _ _⟩
    | none =>
      obtain ⟨fewer,enough⟩ := inner.scan_some (provider.reads request) request.filters limit
        (fun index => reads_inside made) (filters_known made fits)
      simp only [Option.isSome_none,Bool.false_eq_true,if_false,Option.all_none,filter_true,
        length_map,Multiset.coe_card]
      refine ⟨?_,enough⟩
      exact Multiset.map_le_map (Multiset.coe_le.mpr fewer)

end Serve

end LakeFormationTableProvider

open LakeFormationTableProvider

/-- Two tables of one schema that show the same are served the same. -/
theorem hidden_data_unseen {state : SessionState V} {access : TableAccess}
    {one other : InnerProvider V} {tableName : String}
    {first second : LakeFormationTableProvider V} (alike : one.schema = other.schema)
    (made : tryNew state one access tableName = .ok first)
    (made' : tryNew state other access tableName = .ok second)
    (agree : access.view state one = access.view state other) {request : Request V}
    (fits : request.Fits (one.schema.filter access.shows))
    (calm : access.Evaluates state one request) (calm' : access.Evaluates state other request) :
    let names := one.schema.filter access.shows
    first.Serves request (pick (request.columns names) names) (access.answer state one request) ∧
      second.Serves request (pick (request.columns names) names) (access.answer state one request) := by
  have shown := (tryNew_eq_ok made).2.2.1
  have shown' := alike ▸ (tryNew_eq_ok made').2.2.1
  have same : access.answer state other request = access.answer state one request := by
    unfold TableAccess.answer
    rw [agree,alike]
  constructor
  · rw [← shown] at fits ⊢
    exact serves_answer made fits calm
  · rw [← shown'] at fits ⊢
    rw [← same]
    exact serves_answer made' fits calm'

namespace Sample

def memTable (schema : List String) (distinct : schema.Nodup) (rows : List (List Int))
    (width : ∀ row ∈ rows, row.length = schema.length) : InnerProvider Int where
  schema
  distinct
  rows
  width
  scan projection filters limit :=
    let kept := (rows.filter fun row => filters.all fun expr => expr.passes schema row).map (pick projection)
    limit.elim kept kept.take
  scan_all _ _ _ _ := List.Perm.refl _
  scan_some _ _ limit _ _ := by
    refine ⟨(take_sublist _ _).subperm,?_⟩
    simp

def ratio : Expr Int where
  columnRefs := ["n"]
  eval env := match env "n" with
    | none => .no
    | some n => if n = 0 then .fault else if 6/n > 1 then .yes else .no
  reads one other same := by rw [same "n" (by simp)]

def session : SessionState Int where
  createLogicalExpr schema _ := if "n" ∈ schema then some ratio else none
  resolves schema sql expr read := by
    split at read
    · next known =>
      obtain rfl := Option.some.inj read
      simpa [ratio] using known
    · cases read

def columns : List String := ["id","ssn","n"]

def customers (rows : List (List Int)) (width : ∀ row ∈ rows, row.length = columns.length) :
    InnerProvider Int := memTable columns (by decide) rows width

def decision : TableAccess := ⟨some ["ID"],some "6/n>1",true⟩

def everything : Request Int := ⟨none,[]⟩

def one : InnerProvider Int := customers [[1,7,2],[2,8,5]] (by decide)

def other : InnerProvider Int := customers [[3,9,9],[1,9,2]] (by decide)

def zero : InnerProvider Int := customers [[1,7,2],[2,8,0]] (by decide)

lemma opened (table) (made : (tryNew session table decision "customers").isOk = true) :
    ∃ provider, tryNew session table decision "customers" = .ok provider := by
  cases result : tryNew session table decision "customers" with
  | error fault => simp [result,Except.isOk,Except.toBool] at made
  | ok provider => exact ⟨provider,rfl⟩

lemma opened_one : ∃ provider, tryNew session one decision "customers" = .ok provider :=
  opened one (by decide)

lemma scans_one :
    ((tryNew session one decision "customers").bind fun provider => provider.scan none [] none).isOk =
      true := by decide

lemma scans_zero :
    ((tryNew session zero decision "customers").bind fun provider => provider.scan none [] none).isOk =
      false := by decide

lemma fits : everything.Fits (one.schema.filter decision.shows) :=
  ⟨by decide,nofun,nofun⟩

lemma alike : decision.view session one = decision.view session other := by decide

lemma evaluates_one : decision.Evaluates session one everything := by
  unfold TableAccess.Evaluates
  decide

lemma evaluates_other : decision.Evaluates session other everything := by
  unfold TableAccess.Evaluates
  decide

theorem hidden_data_unseen_customers :
    ∃ first second, tryNew session one decision "customers" = .ok first ∧
      tryNew session other decision "customers" = .ok second ∧ first.Serves everything ["id"] ↑[[(1 : Int)]] ∧
      second.Serves everything ["id"] ↑[[(1 : Int)]] := by
  obtain ⟨first,made⟩ := opened_one
  obtain ⟨second,made'⟩ := (opened other (by decide))
  have served := hidden_data_unseen (show one.schema = other.schema from rfl) made made'
    alike fits evaluates_one evaluates_other
  refine ⟨first,second,made,made',?_⟩
  exact served

/-- A hidden row on which the filter fails is seen: no scan of its table succeeds. -/
theorem failing_filter_seen :
    ∃ first second, tryNew session one decision "customers" = .ok first ∧
      tryNew session zero decision "customers" = .ok second ∧ one.schema = zero.schema ∧
      decision.view session one = decision.view session zero ∧ everything.Fits (one.schema.filter decision.shows) ∧
      (first.scan none [] none).isOk = true ∧ (second.scan none [] none).isOk = false ∧
      ¬∃ names bag, first.Serves everything names bag ∧ second.Serves everything names bag := by
  obtain ⟨first,made⟩ := opened_one
  obtain ⟨second,made'⟩ := (opened zero (by decide))
  have well := scans_one
  have ill := scans_zero
  rw [made] at well
  rw [made'] at ill
  refine ⟨first,second,made,made',rfl,by decide,fits,well,ill,?_⟩
  rintro ⟨names,bag,_,⟨plan,scanned,_⟩,_⟩
  have done : (second.scan none [] none).isOk = true := by
    rw [show second.scan none [] none = .ok plan from scanned]
    rfl
  exact Bool.noConfusion (done.symm.trans ill)

end Sample
end Oxidant.LakeFormation
