import Oxidant.Planner.Stages

/-! Recombining the partial rows of a group. Every worker aggregates its own rows of the group, and the
combine aggregates what the workers found. Of an aggregate only the function and the first argument
reach the workers. -/
namespace Oxidant.Planner
open List

def onValues (aggregate : List (List Value) → Value) (values : List Value) : Value :=
  aggregate (values.map fun value => [value])

def PartialColumn.value (root : Rat → Value) (arg : Expr) (db : Database) (column : PartialColumn)
    (rows : List Row) : Value :=
  (standardAggregate root column.func).elim .null fun aggregate =>
    onValues aggregate (rows.map fun row =>
      if column.squared then (arg.eval db row).mul (arg.eval db row) else arg.eval db row)

def PartialColumn.combine (root : Rat → Value) (column : PartialColumn) (found : List Value) : Value :=
  (standardAggregate root (if column.func = "count" then "sum" else column.func)).elim .null
    fun aggregate => onValues aggregate found

/-- The rows of a group on the workers that answer for it: under a GROUP BY those with any. -/
def answering (grouped : Bool) (parts : List (List Row)) : List (List Row) :=
  if grouped then parts.filter (!·.isEmpty) else parts

def Decomposition.recombine (root : Rat → Value) (arg : Expr) (db : Database) (made : Decomposition)
    (parts : List (List Row)) : Value :=
  made.finish root (made.columns.map fun column => column.combine root (parts.map (column.value root arg db)))

namespace Value

def plus : Value → Value → Value
  | .num x,.num y => .num (x+y)
  | .num x,_ => .num x
  | _,other => other

def pick (before : Value → Value → Bool) (left right : Value) : Value :=
  if left = .null then right else if right = .null ∨ before left right then left else right

lemma plus_assoc (first second third : Value) :
    (first.plus second).plus third = first.plus (second.plus third) := by
  cases first <;> cases second <;> cases third <;> simp [plus,add_assoc]

lemma pick_assoc (total : ∀ a b, before a b = false → before b a)
    (trans : ∀ a b c, before a b → before b c → before a c) (first second third) :
    pick before (pick before first second) third = pick before first (pick before second third) := by
  unfold pick
  grind

end Value

/-- An aggregate that takes values one by one, blending what each counts for into the rest. -/
structure Folds (blend : Value → Value → Value) (alone : Value → Value) (aggregate : List (List Value) → Value) :
    Prop where
  assoc : ∀ first second third, blend (blend first second) third = blend first (blend second third)
  empty : ∀ values, blend (onValues aggregate []) (onValues aggregate values) = onValues aggregate values
  cons : ∀ value values, onValues aggregate (value::values) = blend (alone value) (onValues aggregate values)

lemma Folds.append (folds : Folds blend alone aggregate) (values more) :
    onValues aggregate (values ++ more) = blend (onValues aggregate values) (onValues aggregate more) := by
  induction values with
  | nil => rw [nil_append,folds.empty]
  | cons value values ih => rw [cons_append,folds.cons,ih,folds.cons,folds.assoc]

/-- What the parts come to blends into what all of them come to, as soon as there is a part. -/
lemma Folds.flatten (folds : Folds blend alone aggregate) (combine : Folds blend same combined)
    (unchanged : ∀ values, same (onValues aggregate values) = onValues aggregate values ∧
      blend (onValues aggregate values) (onValues combined []) = onValues aggregate values)
    (read) (parts : List (List Row)) (inhabited : parts ≠ []) :
    onValues combined (parts.map fun rows => onValues aggregate (rows.map read)) =
      onValues aggregate (parts.flatten.map read) := by
  induction parts with
  | nil => contradiction
  | cons rows parts ih =>
    rw [map_cons,combine.cons,(unchanged _).1,flatten_cons,map_append]
    cases parts with
    | nil => simpa using (unchanged (rows.map read)).2
    | cons next parts => rw [ih (cons_ne_nil _ _),folds.append]

def sumOf : List (List Value) → Value := fun tuples =>
  if numbers tuples = [] then .null else .num (numbers tuples).sum

def countOf : List (List Value) → Value := fun tuples => .num (present tuples).length

lemma sum_folds : Folds .plus (fun value => value.number.elim .null .num) sumOf where
  assoc := Value.plus_assoc
  empty _ := rfl
  cons value values := by
    unfold onValues sumOf numbers
    cases value with
    | num x =>
      by_cases none : ((values.map fun value => [value]).flatMap fun tuple =>
          (tuple.head?.bind Value.number).toList) = []
      · simp [none,Value.plus,Value.number]
      · simp [none,Value.plus,Value.number]
    | _ => rfl

lemma count_folds : Folds .plus (fun value => .num (present [[value]]).length) countOf where
  assoc := Value.plus_assoc
  empty values := by simp [onValues,countOf,Value.plus,present]
  cons value values := by
    unfold onValues countOf present
    rw [map_cons,← singleton_append,filter_append,length_append,Nat.cast_add]
    rfl

lemma extreme_folds (total : ∀ a b, before a b = false → before b a)
    (trans : ∀ a b c, before a b → before b c → before a c) :
    Folds (.pick before) id (extreme before) where
  assoc := Value.pick_assoc total trans
  empty _ := rfl
  cons value values := by
    unfold onValues extreme present
    rw [map_cons,filter_cons]
    by_cases here : value = .null
    · simp [here,Value.pick]
    · rw [if_pos (by simpa using here),foldr_cons,id,Value.pick,if_neg here]
      rfl

lemma min_folds :
    Folds (.pick fun first second => first.rank ≤ second.rank) id
      (extreme fun first second => first.rank ≤ second.rank) :=
  extreme_folds (fun a b => by simpa using le_of_lt) (fun a b c => by simpa using le_trans)

lemma max_folds :
    Folds (.pick fun first second => second.rank ≤ first.rank) id
      (extreme fun first second => second.rank ≤ first.rank) :=
  extreme_folds (fun a b => by simpa using le_of_lt)
    (fun a b c => by simpa using fun first second => le_trans second first)

lemma extreme_unchanged (values) :
    id (onValues (extreme before) values) = onValues (extreme before) values ∧
    Value.pick before (onValues (extreme before) values) (onValues (extreme before) []) =
      onValues (extreme before) values := by
  refine ⟨rfl,?_⟩
  unfold Value.pick
  split
  · rename_i none
    exact none.symm
  · exact if_pos (Or.inl rfl)

lemma sum_unchanged (values) :
    (onValues sumOf values).number.elim .null .num = onValues sumOf values ∧
    (onValues sumOf values).plus .null = onValues sumOf values := by
  unfold onValues sumOf
  split
  · exact ⟨rfl,rfl⟩
  · exact ⟨rfl,rfl⟩

lemma column_recombines {column : PartialColumn} {arg : Expr} (known : column.func ∈ ["sum","count","min","max"])
    (inhabited : parts ≠ []) :
    column.combine root (parts.map (column.value root arg db)) = column.value root arg db parts.flatten := by
  obtain ⟨suffix,func,squared⟩ := column
  simp only [mem_cons,not_mem_nil,or_false] at known
  rcases known with rfl | rfl | rfl | rfl
  · exact sum_folds.flatten sum_folds sum_unchanged _ parts inhabited
  · exact count_folds.flatten sum_folds (fun _ => ⟨rfl,rfl⟩) _ parts inhabited
  · exact min_folds.flatten min_folds extreme_unchanged _ parts inhabited
  · exact max_folds.flatten max_folds extreme_unchanged _ parts inhabited

lemma recombine_columns {made : Decomposition} {arg : Expr}
    (core : ∀ column ∈ made.columns, column.func ∈ ["sum","count","min","max"]) (inhabited : parts ≠ []) :
    made.recombine root arg db parts =
      made.finish root (made.columns.map fun column => column.value root arg db parts.flatten) := by
  unfold Decomposition.recombine
  rw [map_congr_left fun column mem => column_recombines (core column mem) inhabited]

lemma numbers_values (values : List Value) :
    numbers (values.map fun value => [value]) = values.filterMap Value.number := by
  unfold numbers
  rw [flatMap_map,filterMap_eq_flatMap_toList]
  rfl

lemma present_values (values : List Value) :
    present (values.map fun value => [value]) = (values.filter (· ≠ .null)).map fun value => [value] := by
  unfold present
  rw [filter_map]
  simp [Function.comp_def]

lemma avg_eq :
    (onValues sumOf values).divNonzero (onValues countOf values) =
      if numbers (values.map fun value => [value]) = [] then .null
      else .num
        ((numbers (values.map fun value => [value])).sum / (present (values.map fun value => [value])).length) := by
  unfold onValues sumOf countOf
  split
  · rfl
  · next counted =>
    apply if_neg
    intro zero
    rw [numbers_values] at counted
    obtain ⟨x,mem⟩ := exists_mem_of_ne_nil _ counted
    obtain ⟨value,there,number⟩ := mem_filterMap.mp mem
    have here : value ≠ .null := by
      rintro rfl
      cases number
    rw [present_values,length_map,Nat.cast_eq_zero,length_eq_zero_iff,filter_eq_nil_iff] at zero
    exact zero value there (by simpa using here)

/-- The five functions over one argument, recombined from any split of the rows. -/
lemma recombine_eq {made : Decomposition} {arg : Expr} (known : func ∈ ["sum","count","min","max","avg"])
    (means : standardAggregate root func = some aggregate) (split : partialCombineSql func = .ok made)
    (inhabited : parts ≠ []) :
    made.recombine root arg db parts = onValues aggregate (parts.flatten.map (arg.eval db)) := by
  simp only [mem_cons,not_mem_nil,or_false] at known
  rcases known with rfl | rfl | rfl | rfl | rfl <;> obtain rfl := Option.some.inj means <;>
    obtain rfl := Except.ok.inj split <;> rw [recombine_columns (by decide) inhabited]
  · rfl
  · rfl
  · rfl
  · rfl
  · exact avg_eq

namespace AggExpr

def Unary (agg : AggExpr) : Prop := agg.func ≠ "count" → ∃ arg, agg.args = [arg]

def first (agg : AggExpr) : Expr := agg.args.headD (.literal (.num 1))

def Fits (db : Database) (agg : AggExpr) (row : Row) : Prop := agg.func = "sum" ∨ agg.func = "avg" →
  agg.first.eval db row = .null ∨ ∃ x, agg.first.eval db row = .num x

/-- The rows that the workers count are rows that the aggregate counts. -/
def Counts (db : Database) (agg : AggExpr) : Prop :=
  ∀ row, agg.Fits db row → agg.first.eval db row ≠ .null →
    agg.filter.all (Expr.passes db row) ∧ ∀ arg ∈ agg.args, arg.eval db row ≠ .null

def all (agg : AggExpr) : AggExpr := {agg with distinct := false}

end AggExpr

lemma classify_ok (classified : AggSpec.classify unparser agg = .ok spec) :
    spec = ⟨agg.func,agg.first,agg.distinct⟩ := by
  unfold AggSpec.classify at classified
  unfold AggExpr.first
  split at classified
  · rename_i none
    rw [none]
    exact (Except.ok.inj classified).symm
  · rename_i arg rest args
    rw [args]
    cases written : exprSql unparser arg with
    | ok _ =>
      rw [written] at classified
      exact (Except.ok.inj classified).symm
    | error error =>
      rw [written] at classified
      contradiction

lemma onValues_present (known : func ∈ ["sum","count","min","max","avg"])
    (means : standardAggregate root func = some aggregate) :
    onValues aggregate (values.filter (· ≠ .null)) = onValues aggregate values := by
  have numbers_eq : (values.filter (· ≠ .null)).filterMap Value.number = values.filterMap Value.number := by
    rw [filterMap_filter]
    congr
    funext value
    cases value <;> rfl
  simp only [mem_cons,not_mem_nil,or_false] at known
  rcases known with rfl | rfl | rfl | rfl | rfl <;> obtain rfl := Option.some.inj means <;>
    simp only [onValues,extreme,numbers_values,present_values,numbers_eq,filter_filter,Bool.and_self]

lemma alone_ne (known : func ∈ ["sum","count","min","max","avg"])
    (means : standardAggregate root func = some aggregate) (here : value ≠ .null)
    (numeric : func = "sum" ∨ func = "avg" → value = .null ∨ ∃ x, value = .num x) :
    onValues aggregate [value] ≠ aggregate [] := by
  simp only [mem_cons,not_mem_nil,or_false] at known
  rcases known with rfl | rfl | rfl | rfl | rfl <;> obtain rfl := Option.some.inj means
  · obtain ⟨x,rfl⟩ := (numeric (.inl rfl)).resolve_left here
    simp [onValues,numbers,Value.number]
  · simp [onValues,present,here]
  · simp [onValues,extreme,present,here]
  · simp [onValues,extreme,present,here]
  · obtain ⟨x,rfl⟩ := (numeric (.inr rfl)).resolve_left here
    simp [onValues,numbers,Value.number]

section
variable {agg : AggExpr} (unary : agg.Unary) (known : agg.func ∈ ["sum","count","min","max","avg"])
  (means : standardAggregate agg.root agg.func = some aggregate)

lemma AggExpr.Counts.iff (counts : agg.Counts db) (fits : agg.Fits db row) :
    agg.first.eval db row ≠ .null ↔
    agg.filter.all (Expr.passes db row) ∧ ∀ arg ∈ agg.args, arg.eval db row ≠ .null := by
  refine ⟨counts row fits,fun ⟨_,whole⟩ => ?_⟩
  unfold first
  cases args : agg.args with
  | nil => exact Value.noConfusion
  | cons arg rest =>
    apply whole
    rw [args]
    exact mem_cons_self

include unary known means

/-- Where the workers count what the aggregate counts, its first argument alone decides its value. -/
lemma AggExpr.Counts.eval_all (counts : agg.Counts db) (fits : ∀ row ∈ rows, agg.Fits db row) :
    agg.all.eval db rows = onValues aggregate (rows.map (agg.first.eval db)) := by
  have computes := agg.standard aggregate means
  unfold eval tuples all
  simp only [Bool.false_eq_true,if_false,computes]
  by_cases func : agg.func = "count"
  · rw [func] at means
    obtain rfl := Option.some.inj means
    unfold onValues present
    rw [map_map]
    beta_reduce
    rw [filter_map,filter_map,length_map,length_map,filter_filter]
    congr 3
    apply filter_congr
    intro row mem
    have := counts.iff (fits row mem)
    grind
  · obtain ⟨arg,args⟩ := unary func
    have first : agg.first = arg := by rw [AggExpr.first,args,headD_cons]
    rw [first,← onValues_present known means,args]
    trans onValues aggregate ((rows.filter fun row => agg.filter.all (Expr.passes db row)).map (arg.eval db))
    · rw [onValues,map_map]
      rfl
    · rw [← onValues_present known means,filter_map,filter_map,filter_filter]
      congr 2
      apply filter_congr
      intro row mem
      have := counts.iff (fits row mem)
      grind

/-- One row already tells a FILTER or a further argument that the workers do not have. -/
lemma AggExpr.counts_of_eval
    (same : ∀ row, agg.Fits db row → agg.eval db [row] = onValues aggregate [agg.first.eval db row]) :
    agg.Counts db := by
  intro row fits here
  have computes := agg.standard aggregate means
  have value := same row fits
  have passes : agg.filter.all (Expr.passes db row) := by
    by_contra fails
    apply alone_ne known means here fits
    rw [← value,eval,computes,tuples]
    simp [fails]
  refine ⟨passes,?_⟩
  by_cases func : agg.func = "count"
  · rw [func] at means
    obtain rfl := Option.some.inj means
    rw [eval,computes,tuples] at value
    by_contra absent
    simp [passes,present,onValues,here,filter_cons] at value
    rw [if_neg absent] at value
    contradiction
  · obtain ⟨arg,args⟩ := unary func
    rw [first,args,headD_cons] at here
    simpa [args] using here

end

namespace Sample

def sumWhere (filter : Option Expr) : AggExpr where
  func := "sum"
  distinct := false
  filter := filter
  args := [.column (column "fact" "x")]
  output := ⟨none,"total"⟩
  root := .num
  compute := sumOf
  standard _ means := Option.some.inj means

def yIsOne : Expr := .eq (.column (column "fact" "y")) (.literal (.num 1))

def fact (x y : Rat) : Row := [(column "fact" "x",.num x),(column "fact" "y",.num y)]

end Sample
end Oxidant.Planner
