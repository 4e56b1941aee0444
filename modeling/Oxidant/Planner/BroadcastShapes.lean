import Oxidant.Planner.ScanQueries

/-! The shapes of a plan that may not be run on every worker with the replicated tables whole. The
guard looks at joins and unions and passes through every other node. The top of an aggregation is
what stands above the aggregate, outermost first, and the aggregate. -/
namespace Oxidant.Planner
open List

namespace LogicalPlan

def preservedSide (name : String) (type : JoinType) (left right : LogicalPlan) : Option PlanError :=
  match type with
  | .full => some (.unsupported
      "auto-distribute: FULL OUTER JOIN is not broadcast-safe with a single sharded table")
  | .left | .leftSemi | .leftAnti | .leftMark =>
    if left.countTableScans name = 0 then some (.unsupported
      s!"auto-distribute: LEFT join's preserved side does not scan sharded table `{name}` — its unmatched rows would repeat on every worker")
    else none
  | .right | .rightSemi | .rightAnti =>
    if right.countTableScans name = 0 then some (.unsupported
      s!"auto-distribute: RIGHT join's preserved side does not scan sharded table `{name}` — its unmatched rows would repeat on every worker")
    else none
  | .inner | .rightMark => none

mutual

def rejectUnsafeBroadcastShapes (name : String) : LogicalPlan → Except PlanError Unit
  | .tableScan _ _ _ _ => .ok ()
  | .filter predicate input =>
    if (filter predicate input).countTableScans name = 0 then .ok ()
    else input.rejectUnsafeBroadcastShapes name
  | .projection exprs input =>
    if (projection exprs input).countTableScans name = 0 then .ok ()
    else input.rejectUnsafeBroadcastShapes name
  | .subqueryAlias other input =>
    if (subqueryAlias other input).countTableScans name = 0 then .ok ()
    else input.rejectUnsafeBroadcastShapes name
  | .join type condition left right =>
    if (join type condition left right).countTableScans name = 0 then .ok ()
    else match preservedSide name type left right with
      | some error => .error error
      | none => match left.rejectUnsafeBroadcastShapes name with
        | .error error => .error error
        | .ok () => right.rejectUnsafeBroadcastShapes name
  | .union schema inputs =>
    if (union schema inputs).countTableScans name = 0 then .ok ()
    else rejectUnsafeArms name inputs
  | .sort keys fetch input =>
    if (sort keys fetch input).countTableScans name = 0 then .ok ()
    else input.rejectUnsafeBroadcastShapes name
  | .limit skip fetch input =>
    if (limit skip fetch input).countTableScans name = 0 then .ok ()
    else input.rejectUnsafeBroadcastShapes name
  | .distinct on input =>
    if (distinct on input).countTableScans name = 0 then .ok ()
    else input.rejectUnsafeBroadcastShapes name
  | .window exprs input =>
    if (window exprs input).countTableScans name = 0 then .ok ()
    else input.rejectUnsafeBroadcastShapes name
  | .aggregate group aggs input =>
    if (aggregate group aggs input).countTableScans name = 0 then .ok ()
    else input.rejectUnsafeBroadcastShapes name

def rejectUnsafeArms (name : String) : List LogicalPlan → Except PlanError Unit
  | [] => .ok ()
  | arm::arms =>
    if arm.countTableScans name = 0 then .error (.unsupported
      s!"auto-distribute: UNION ALL arm does not scan sharded table `{name}` — broadcasting it would repeat that arm's rows on every worker")
    else match arm.rejectUnsafeBroadcastShapes name with
      | .error error => .error error
      | .ok () => rejectUnsafeArms name arms

end

lemma rejectUnsafeArms_eq_ok (safe : rejectUnsafeArms name arms = .ok ()) :
    ∀ arm ∈ arms, arm.countTableScans name ≠ 0 ∧ arm.rejectUnsafeBroadcastShapes name = .ok () := by
  induction arms with
  | nil => simp
  | cons arm arms ih =>
    unfold rejectUnsafeArms at safe
    split at safe
    · cases safe
    · next scans =>
      split at safe
      · cases safe
      · next checked => exact forall_mem_cons.mpr ⟨⟨scans,checked⟩,ih safe⟩

lemma rejectUnsafe_join (scans : (join type condition left right).countTableScans name ≠ 0)
    (safe : (join type condition left right).rejectUnsafeBroadcastShapes name = .ok ()) :
    preservedSide name type left right = none ∧ left.rejectUnsafeBroadcastShapes name = .ok () ∧
    right.rejectUnsafeBroadcastShapes name = .ok () := by
  rw [rejectUnsafeBroadcastShapes,if_neg scans] at safe
  split at safe
  · cases safe
  · next kept =>
    split at safe
    · cases safe
    · next checked => exact ⟨kept,checked,safe⟩

lemma baseTables_eq (lp : LogicalPlan) :
    lp.baseTables = lp.scanned.map (·.table) ++ lp.inputs.flatMap baseTables := by
  conv_lhs => rw [baseTables,fold_eq]
  rfl

lemma collectSubqueryTables_eq (lp : LogicalPlan) :
    lp.collectSubqueryTables = (lp.expressions.flatMap Expr.tables).map (·.table) ++
      lp.inputs.flatMap collectSubqueryTables := by
  conv_lhs => rw [collectSubqueryTables,fold_eq]
  rfl

lemma shardedTables_eq (lp : LogicalPlan) :
    lp.shardedTables replicated = (lp.scanned.map (·.table)).filter (· ∉ replicated) ++
      lp.inputs.flatMap fun input => input.shardedTables replicated := by
  unfold shardedTables
  rw [baseTables_eq,filter_append,filter_flatMap]

lemma tables_perm (lp : LogicalPlan) :
    (lp.tables.map (·.table)).Perm (lp.baseTables ++ lp.collectSubqueryTables) := by
  induction lp using inputs_induction with
  | step lp ih =>
    rw [tables_eq,baseTables_eq,collectSubqueryTables_eq]
    simp only [map_append,map_flatMap]
    have below := (List.Perm.flatMap_left _ ih).trans (flatMap_append_perm _ _ _).symm
    refine ((below.append_left _).append_right _).trans ?_
    simp only [append_assoc]
    exact (perm_append_comm.append_left _).append_left _

lemma countTableScans_of_replicated {lp : LogicalPlan}
    (inside : ∀ table ∈ lp.collectSubqueryTables, table ∈ replicated) (mine : name ∉ replicated) :
    lp.countTableScans name = (lp.shardedTables replicated).count name := by
  have outside : lp.collectSubqueryTables.count name = 0 :=
    count_eq_zero.mpr fun mem => mine (inside name mem)
  have scans : lp.countTableScans name = (lp.tables.map (·.table)).count name := by
    rw [countTableScans_eq,count_eq_countP,countP_map]
    rfl
  rw [scans,lp.tables_perm.count_eq,count_append,outside,add_zero,shardedTables,count_filter]
  simpa using mine

lemma free_of_replicated {lp : LogicalPlan} (inside : ∀ table ∈ lp.collectSubqueryTables, table ∈ replicated)
    (nothing : lp.shardedTables replicated = []) : lp.free (· ∉ replicated) := by
  unfold free
  rw [all_eq_true]
  intro table mem
  have named := lp.tables_perm.subset (mem_map_of_mem mem)
  rcases mem_append.mp named with scanned | below
  · simpa using filter_eq_nil_iff.mp nothing _ scanned
  · simpa using inside _ below

variable (sharded : String → Bool)

mutual

/-- No operator above a sharded scan looks at several rows, or keeps the rows of a join's other
side. -/
def rowByRow : LogicalPlan → Bool
  | .tableScan table _ _ fetch => !sharded table.table || fetch.isNone
  | .filter _ input => input.rowByRow
  | .projection _ input => input.rowByRow
  | .subqueryAlias _ input => input.rowByRow
  | .join type _ left right => left.rowByRow && right.rowByRow && (type ≠ .rightMark || left.free sharded)
  | .union _ inputs => rowByRowAll inputs
  | .sort _ fetch input => input.free sharded || fetch.isNone && input.rowByRow
  | .limit skip fetch input => input.free sharded ||
    skip.all (·.value = 0) && fetch.isNone && input.rowByRow
  | .distinct _ input => input.free sharded
  | .window _ input => input.free sharded
  | .aggregate _ _ input => input.free sharded

def rowByRowAll : List LogicalPlan → Bool
  | [] => true
  | input::inputs => input.rowByRow && rowByRowAll inputs

end

lemma rowByRowAll_iff {inputs : List LogicalPlan} :
    rowByRowAll sharded inputs ↔ ∀ input ∈ inputs, input.rowByRow sharded := by
  induction inputs with
  | nil => simp [rowByRowAll]
  | cons input inputs ih => rw [rowByRowAll,Bool.and_eq_true,ih,forall_mem_cons]

lemma rejectUnsafe_input {name : String} {lp input : LogicalPlan} (only : lp.inputs = [input])
    (scans : lp.countTableScans name ≠ 0) (safe : lp.rejectUnsafeBroadcastShapes name = .ok ()) :
    input.rejectUnsafeBroadcastShapes name = .ok () := by
  cases lp with
  | tableScan => cases only
  | join => cases only
  | union schema inputs =>
    obtain rfl : inputs = [input] := only
    rw [rejectUnsafeBroadcastShapes,if_neg scans] at safe
    exact (rejectUnsafeArms_eq_ok safe input (mem_singleton_self _)).2
  | _ =>
    cases only
    rw [rejectUnsafeBroadcastShapes,if_neg scans] at safe
    exact safe

lemma shardedTables_of_free {lp : LogicalPlan}
    (free : lp.free (· ∉ replicated)) : lp.shardedTables replicated = [] := by
  apply filter_eq_nil_iff.mpr
  intro name scanned
  obtain ⟨table,mem,rfl⟩ :=
    mem_map.mp (lp.tables_perm.symm.subset (mem_append_left _ scanned))
  simpa using all_eq_true.mp free table mem

structure ScansOnce (replicated : List String) (name : String) (lp : LogicalPlan) : Prop where
  inside : ∀ table ∈ lp.collectSubqueryTables, table ∈ replicated
  once : lp.shardedTables replicated = [name]

namespace ScansOnce
variable {lp : LogicalPlan}

section
variable (scans : lp.ScansOnce replicated name)
include scans

lemma below (input : LogicalPlan) (mem : input ∈ lp.inputs) :
    ∀ table ∈ input.collectSubqueryTables, table ∈ replicated := by
  intro table found
  apply scans.inside
  rw [collectSubqueryTables_eq]
  exact mem_append_right _ (mem_flatMap.mpr ⟨input,mem,found⟩)

lemma exprs : exprsFree (· ∉ replicated) lp.expressions := by
  unfold exprsFree
  rw [all_eq_true]
  intro table found
  have held : table.table ∈ replicated := by
    apply scans.inside
    rw [collectSubqueryTables_eq]
    exact mem_append_left _ (mem_map_of_mem found)
  simpa using held

lemma mine : name ∉ replicated := by
  have mem : name ∈ lp.shardedTables replicated := by simp [scans.once]
  simpa using (mem_filter.mp mem).2

lemma count : lp.countTableScans name ≠ 0 := by
  rw [countTableScans_of_replicated scans.inside scans.mine,scans.once]
  simp

lemma not_free : lp.free (· ∉ replicated) = false := by
  apply eq_false_of_ne_true
  intro free
  have nothing := shardedTables_of_free free
  rw [scans.once] at nothing
  cases nothing

lemma input {input : LogicalPlan} (only : lp.inputs = [input]) (plain : lp.scanned = []) :
    input.ScansOnce replicated name where
  inside := scans.below input (by simp [only])
  once := by
    rw [← scans.once,shardedTables_eq lp,plain,only]
    simp

end

end ScansOnce

lemma splitsRight_of_kept (kept : preservedSide name type left right = none)
    (nothing : left.countTableScans name = 0) : type.splitsRight := by
  cases type with
  | inner | right | rightSemi | rightAnti | rightMark => rfl
  | full => cases kept
  | _ =>
    rw [preservedSide,if_pos nothing] at kept
    cases kept

lemma splitsLeft_of_kept (kept : preservedSide name type left right = none)
    (nothing : right.countTableScans name = 0) (unmarked : type ≠ .rightMark) :
    type.splitsLeft := by
  cases type with
  | inner | left | leftSemi | leftAnti | leftMark => rfl
  | full => cases kept
  | rightMark => exact absurd rfl unmarked
  | _ =>
    rw [preservedSide,if_pos nothing] at kept
    cases kept

lemma shardLocal_of_safe {replicated : List String} {name : String} {lp : LogicalPlan}
    (scans : lp.ScansOnce replicated name) (safe : lp.rejectUnsafeBroadcastShapes name = .ok ())
    (rows : lp.rowByRow (· ∉ replicated)) : lp.shardLocal (· ∉ replicated) := by
  induction lp using inputs_induction with
  | step lp ih =>
    have single : ∀ input : LogicalPlan, lp.inputs = [input] → lp.scanned = [] →
        input.rowByRow (· ∉ replicated) → input.shardLocal (· ∉ replicated) := by
      intro input only plain rows
      exact ih input (by simp [only]) (scans.input only plain) (rejectUnsafe_input only scans.count safe) rows
    have reads : ∀ input : LogicalPlan, lp.inputs = [input] → lp.scanned = [] →
        input.free (· ∉ replicated) = false := by
      intro input only plain
      exact (scans.input only plain).not_free
    have free := scans.exprs
    cases lp with
    | tableScan table schema filters fetch =>
      have mine : table.table ∉ replicated := by
        have found := scans.once
        rw [shardedTables_eq] at found
        intro held
        simp [scanned,inputs,held] at found
      simp only [rowByRow,mine,not_false_eq_true,decide_true,Bool.not_true,Bool.false_or] at rows
      simp only [shardLocal,mine,not_false_eq_true,decide_true,Bool.true_and,Bool.and_eq_true]
      exact ⟨free,rows⟩
    | filter predicate input =>
      rw [shardLocal,Bool.and_eq_true]
      exact ⟨free,single input rfl rfl rows⟩
    | projection exprs input =>
      rw [shardLocal,Bool.and_eq_true]
      exact ⟨free,single input rfl rfl rows⟩
    | subqueryAlias other input => exact single input rfl rfl rows
    | join type condition left right =>
      have found : left.shardedTables replicated ++ right.shardedTables replicated = [name] := by
        rw [← scans.once,shardedTables_eq (join type condition left right)]
        simp [scanned,inputs]
      obtain ⟨kept,leftSafe,rightSafe⟩ := rejectUnsafe_join scans.count safe
      have leftInside := scans.below left (by simp [inputs])
      have rightInside := scans.below right (by simp [inputs])
      simp only [rowByRow,Bool.and_eq_true,Bool.or_eq_true,decide_eq_true_eq] at rows
      obtain ⟨⟨leftRows,rightRows⟩,marked⟩ := rows
      rw [shardLocal,Bool.and_eq_true,Bool.or_eq_true]
      simp only [Bool.and_eq_true]
      refine ⟨free,?_⟩
      rcases append_eq_singleton_iff.mp found with ⟨nothing,once⟩ | ⟨once,nothing⟩
      · have scan : right.ScansOnce replicated name := ⟨rightInside,once⟩
        have none_ : left.countTableScans name = 0 := by
          rw [countTableScans_of_replicated leftInside scan.mine,nothing,count_nil]
        exact Or.inr ⟨⟨splitsRight_of_kept kept none_,free_of_replicated leftInside nothing⟩,
          ih right (by simp [inputs]) scan rightSafe rightRows⟩
      · have scan : left.ScansOnce replicated name := ⟨leftInside,once⟩
        have none_ : right.countTableScans name = 0 := by
          rw [countTableScans_of_replicated rightInside scan.mine,nothing,count_nil]
        have unmarked : type ≠ .rightMark := marked.resolve_right (ne_true_of_eq_false scan.not_free)
        exact Or.inl ⟨⟨splitsLeft_of_kept kept none_ unmarked,
          ih left (by simp [inputs]) scan leftSafe leftRows⟩,free_of_replicated rightInside nothing⟩
    | union schema arms =>
      have found : (arms.flatMap fun arm => arm.shardedTables replicated) = [name] := by
        rw [← scans.once,shardedTables_eq (union schema arms)]
        rfl
      rw [rejectUnsafeBroadcastShapes,if_neg scans.count] at safe
      rw [rowByRow,rowByRowAll_iff] at rows
      rw [shardLocal,shardLocalAll_iff]
      intro arm mem
      obtain ⟨scanned,armSafe⟩ := rejectUnsafeArms_eq_ok safe arm mem
      have inside := scans.below arm mem
      rw [countTableScans_of_replicated inside scans.mine] at scanned
      have part : (arm.shardedTables replicated).Sublist [name] := by
        rw [← found,List.flatMap]
        exact sublist_flatten_of_mem (mem_map_of_mem mem)
      rcases sublist_singleton.mp part with nothing | once
      · rw [nothing] at scanned
        exact absurd count_nil scanned
      · exact ih arm mem ⟨inside,once⟩ armSafe (rows arm mem)
    | sort keys fetch input =>
      rw [rowByRow,reads input rfl rfl,Bool.false_or,Bool.and_eq_true] at rows
      rw [shardLocal,Bool.and_eq_true]
      exact ⟨rows.1,single input rfl rfl rows.2⟩
    | limit skip fetch input =>
      rw [rowByRow,reads input rfl rfl,Bool.false_or,Bool.and_eq_true] at rows
      rw [shardLocal,Bool.and_eq_true]
      exact ⟨rows.1,single input rfl rfl rows.2⟩
    | distinct on input =>
      rw [rowByRow,reads input rfl rfl] at rows
      cases rows
    | window exprs input =>
      rw [rowByRow,reads input rfl rfl] at rows
      cases rows
    | aggregate group aggs input =>
      rw [rowByRow,reads input rfl rfl] at rows
      cases rows

end LogicalPlan

/-- What the planner uses of DataFusion beyond its plans. -/
structure DataFusion extends Unparser where
  display : LogicalPlan → String
  displayAgg : AggExpr → String
  displayExpr : Expr → String
  /-- The schema of a union of inputs, strictly or else loosely typed. -/
  tryNewUnion : List LogicalPlan → Except String (List Column)
  /-- Whether a node takes other inputs under the expressions it has. -/
  withNewExprs : LogicalPlan → List LogicalPlan → Except String Unit
  /-- Whether the text of a plan has a FROM clause that another SELECT list can be put in front of. -/
  fromTail : LogicalPlan → Except PlanError Unit

structure Peeled where
  projection : Option (List (Expr × Column))
  sort : Option (List SortExpr)
  limit : Option Nat
  having : List Expr
  aliasProjections : List (List (Expr × Column))
  group : GroupBy
  aggs : List AggExpr
  input : LogicalPlan

namespace LogicalPlan

def peelFrom (display : LogicalPlan → String) (projection : Option (List (Expr × Column)))
    (order : Option (List SortExpr)) (top : Option Nat) (having : List Expr)
    (aliases : List (List (Expr × Column))) : LogicalPlan → Except PlanError Peeled
  | .limit _ fetch input => input.peelFrom display projection order
      (match fetch with
        | some ⟨count,true⟩ => some count
        | _ => top) having aliases
  | .sort keys _ input => input.peelFrom display projection (some keys) top having aliases
  | .projection exprs input => match projection with
    | none => input.peelFrom display (some exprs) order top having aliases
    | some _ => input.peelFrom display projection order top having (exprs::aliases)
  | .filter predicate input => input.peelFrom display projection order top (having ++ [predicate]) aliases
  | .subqueryAlias _ input => input.peelFrom display projection order top having aliases
  | .aggregate group aggs input => .ok ⟨projection,order,top,having,aliases,group,aggs,input⟩
  | other => .error (.unsupported
      s!"auto-distribute: unsupported top-level plan node `{display other}`")

def peel (display : LogicalPlan → String) (lp : LogicalPlan) : Except PlanError Peeled :=
  lp.peelFrom display none none none [] []

def peelsToInnerAggregate : LogicalPlan → Bool
  | .projection _ input => input.peelsToInnerAggregate
  | .subqueryAlias _ input => input.peelsToInnerAggregate
  | .aggregate .. => true
  | _ => false

def peelsToAggregateShallow : LogicalPlan → Bool
  | .projection _ input => input.peelsToAggregateShallow
  | .subqueryAlias _ input => input.peelsToAggregateShallow
  | .filter _ input => input.peelsToAggregateShallow
  | .aggregate .. => true
  | _ => false

end LogicalPlan
end Oxidant.Planner
