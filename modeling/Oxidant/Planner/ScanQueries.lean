import Mathlib.Data.List.Find
import Oxidant.Planner.Stages

/-! Queries without aggregates, windows and DISTINCT. Every worker runs the whole plan below the
topmost ORDER BY and LIMIT on its own tables, and the driver orders and cuts what it gathers. -/
namespace Oxidant.Planner
open Lib List Option

namespace LogicalPlan

/-- What lies below the topmost sorts and limits. Of several, those nearest to it are kept. -/
def peelScanTail : LogicalPlan → Option (List SortExpr) → Option Nat →
    LogicalPlan × Option (List SortExpr) × Option Nat
  | .limit _ fetch input,order,top =>
    input.peelScanTail order (match fetch with
      | some ⟨count,true⟩ => some count
      | _ => top)
  | .sort keys _ input,_,top => input.peelScanTail (some keys) top
  | lp,order,top => (lp,order,top)

def ensureSubqueryTablesReplicated (lp : LogicalPlan) (replicated : List String) : Except PlanError Unit :=
  match lp.collectSubqueryTables.find? (· ∉ replicated) with
  | some table => .error (.unsupported
      s!"auto-distribute: subquery over `{table}` is only safe when that table is replicated")
  | none => .ok ()

def shardedTables (lp : LogicalPlan) (replicated : List String) : List String :=
  lp.baseTables.filter (· ∉ replicated)

end LogicalPlan

def buildOuterFinalize (unparser : Unparser) (sort : Option (List SortExpr)) (limit : Option Nat) :
    Except PlanError (Option Finalize) :=
  if sort.isNone && limit.isNone then .ok none
  else ((sort.getD []).forM fun key => exprSql unparser key.expr.unqualify).map fun _ => some ⟨sort,limit⟩

def scanStages (unparser : Unparser) (body : LogicalPlan) (order : Option (List SortExpr))
    (top : Option Nat) (replicated : List String) : Except PlanError (Option DistributedQuery) :=
  let sharded := body.shardedTables replicated
  if sharded.length > 1 then .ok none
  else match sharded.find? fun name => body.countTableScans name > 1 with
    | some name => .error (.unsupported
        s!"auto-distribute: sharded table `{name}` scanned multiple times under scan query")
    | none => match unparser.planToSql body with
      | .error why => .error (.unsupported s!"auto-distribute: unparse scan query: {why}")
      | .ok () => (buildOuterFinalize unparser order top).map fun finalize =>
        some ⟨[⟨0,body,[],[],if sharded.isEmpty then .forward else .hash⟩],finalize⟩

def tryNonAggregate (unparser : Unparser) (lp : LogicalPlan) (replicated : List String) :
    Except PlanError (Option DistributedQuery) :=
  if lp.planContainsAggregate then .ok none
  else if lp.planContainsWindow || lp.planContainsDistinct then .ok none
  else
    let tail := lp.peelScanTail none none
    match tail.1.ensureSubqueryTablesReplicated replicated with
    | .error error => .error error
    | .ok () => scanStages unparser tail.1 tail.2.1 tail.2.2 replicated

variable {lp : LogicalPlan}

lemma tryNonAggregate_eq_ok {query : DistributedQuery}
    (accepted : tryNonAggregate unparser lp replicated = .ok (some query)) :
    let tail := lp.peelScanTail none none
    query.stages = [⟨0,tail.1,[],[],if (tail.1.shardedTables replicated).isEmpty then .forward else .hash⟩] ∧
      buildOuterFinalize unparser tail.2.1 tail.2.2 = .ok query.finalize := by
  unfold tryNonAggregate at accepted
  split at accepted
  · cases accepted
  split at accepted
  · cases accepted
  simp only at accepted
  split at accepted
  · cases accepted
  unfold scanStages at accepted
  simp only at accepted
  split at accepted
  · cases accepted
  split at accepted
  · cases accepted
  split at accepted
  · cases accepted
  cases built : buildOuterFinalize unparser (lp.peelScanTail none none).2.1 (lp.peelScanTail none none).2.2 with
  | error error =>
    rw [built] at accepted
    cases accepted
  | ok finalize =>
    rw [built] at accepted
    cases accepted
    exact ⟨rfl,built⟩

namespace LogicalPlan

/-- No sort or limit shows through to the rows: each is below a node that does not keep an order. -/
def isBody : LogicalPlan → Bool
  | .sort .. | .limit .. => false
  | .filter _ input | .projection _ input | .subqueryAlias _ input => input.isBody
  | _ => true

/-- At most one sort, which keeps the rows the limit above it asks for. -/
def sortKept (top : Option Nat) : LogicalPlan → Bool
  | .sort _ fetch input => (fetch.all fun kept => top.any (· ≤ kept)) && input.isBody
  | lp => lp.isBody

/-- A plan topped by at most one limit, written as a literal and without an offset, over at most one
sort. -/
def tailKept : LogicalPlan → Bool
  | .limit skip fetch input => skip.all (·.value = 0) && fetch.all (·.literal) &&
      input.sortKept (fetch.map (·.value))
  | lp => lp.sortKept none

def scanBody (lp : LogicalPlan) : LogicalPlan := (lp.peelScanTail none none).1

def scanOrder (lp : LogicalPlan) : Option (List SortExpr) := (lp.peelScanTail none none).2.1

/-- The columns of the gathered rows have names of their own, and those of the sort keys are among
them. -/
def orderFound (lp : LogicalPlan) : Prop :=
  ∀ keys ∈ lp.scanOrder, (lp.scanBody.schema.map (·.name)).Nodup ∧
    ∀ key ∈ keys, ∀ asked ∈ key.expr.columns, ∃ held ∈ lp.scanBody.schema, asked.answers held

end LogicalPlan

lemma get_fields (unique : ((Row.columns row).map (·.name)).Nodup)
    (found : ∃ held ∈ Row.columns row, asked.answers held) :
    Row.get (tableRow resultTable (Row.fields row)) ⟨none,asked.name⟩ = Row.get row asked := by
  obtain ⟨held,there,answers⟩ := found
  have named : asked.name = held.name := by
    simp only [Column.answers,Bool.and_eq_true,beq_iff_eq] at answers
    exact answers.1
  have same : ∀ cell ∈ row, (asked.name == cell.1.name) = asked.answers cell.1 := by
    intro cell mem
    by_cases equal : cell.1.name = held.name
    · have one : cell.1 = held :=
        inj_on_of_nodup_map unique (mem_map_of_mem mem) there equal
      rw [one,answers,named]
      simp
    · have apart : (asked.name == cell.1.name) = false := by
        rw [named]
        simpa using Ne.symm equal
      unfold Column.answers
      rw [apart,Bool.false_and]
  unfold Row.get tableRow Row.fields
  rw [List.map_map,List.find?_map,Option.map_map]
  congr 2
  apply find?_congr
  intro cell mem
  rw [← same cell mem]
  simp [Column.answers]

lemma eval_unqualify {db : Database} {row : Row} {expr : Expr} (unique : ((Row.columns row).map (·.name)).Nodup)
    (found : ∀ asked ∈ expr.columns, ∃ held ∈ Row.columns row, asked.answers held) :
    expr.unqualify.eval db (tableRow resultTable (Row.fields row)) = expr.eval db row := by
  induction expr with
  | column c => exact get_fields unique (found c (mem_singleton_self c))
  | literal v => rfl
  | and left right ihl ihr =>
    rw [Expr.columns,forall_mem_append] at found
    rw [Expr.unqualify,Expr.eval,Expr.eval,ihl found.1,ihr found.2]
  | eq left right ihl ihr =>
    rw [Expr.columns,forall_mem_append] at found
    rw [Expr.unqualify,Expr.eval,Expr.eval,ihl found.1,ihr found.2]
  | aliased inner name ih => exact ih found
  | other text reads subqueries compute =>
    rw [Expr.unqualify,Expr.eval,Expr.eval,List.map_map]
    exact congrArg _ (map_congr_left fun asked mem => get_fields unique (found asked mem))

lemma leAll_unqualify {db : Database} {before after : Row} {keys : List SortExpr}
    (uniqueBefore : ((Row.columns before).map (·.name)).Nodup) (same : Row.columns after = Row.columns before)
    (found : ∀ key ∈ keys, ∀ asked ∈ key.expr.columns, ∃ held ∈ Row.columns before, asked.answers held) :
    SortExpr.leAll db (keys.map SortExpr.unqualify) (tableRow resultTable (Row.fields before))
      (tableRow resultTable (Row.fields after)) ↔ SortExpr.leAll db keys before after := by
  have uniqueAfter := same ▸ uniqueBefore
  induction keys with
  | nil => rfl
  | cons key keys ih =>
    rw [forall_mem_cons] at found
    have first := @eval_unqualify db before key.expr uniqueBefore found.1
    have second := @eval_unqualify db after key.expr uniqueAfter (same ▸ found.1)
    have one : ∀ a b, (key.unqualify.expr.eval db a = key.expr.eval db before) →
        (key.unqualify.expr.eval db b = key.expr.eval db after) →
        ((key.unqualify.le db a b ↔ key.le db before after) ∧
          (key.unqualify.le db b a ↔ key.le db after before)) := by
      intro a b left right
      unfold SortExpr.le
      rw [left,right]
      exact ⟨Iff.rfl,Iff.rfl⟩
    obtain ⟨forth,back⟩ := one _ _ first second
    exact and_congr forth (imp_congr back (ih found.2))

lemma exists_perm_of_map (same : out.Perm (items.map image)) :
    ∃ order : List α, order.Perm items ∧ out = order.map image := by
  have mapped : List.Forall₂ (fun value item => value = image item) (items.map image) items := by
    rw [forall₂_map_left_iff]
    exact forall₂_same.mpr fun _ _ => rfl
  obtain ⟨order,images,arranged⟩ := perm_comp_forall₂ same mapped
  have image_ : out = order.map image := by
    rw [← forall₂_eq_eq_eq,forall₂_map_right_iff]
    exact images
  exact ⟨order,arranged,image_⟩

def Cut {α : Type} (bag : List α) (sorted : List α → Prop) (top : Option Nat) (out : List α) : Prop :=
  ∃ ordered : List α, ordered.Perm bag ∧ sorted ordered ∧ out = top.elim ordered ordered.take

lemma allows_iff (built : buildOuterFinalize unparser order top = .ok finalize) :
    Finalize.Allows driver finalize bag out ↔ Cut bag (fun ordered => ∀ keys ∈ order,
      Ordered driver (keys.map SortExpr.unqualify) (tableRow resultTable) ordered) top out := by
  unfold buildOuterFinalize at built
  split at built
  · next nothing =>
    cases built
    rw [Bool.and_eq_true,isNone_iff_eq_none,isNone_iff_eq_none] at nothing
    obtain ⟨rfl,rfl⟩ := nothing
    constructor
    · intro same
      exact ⟨out,same,nofun,rfl⟩
    · rintro ⟨ordered,same,_,rfl⟩
      exact same
  · cases written : (order.getD []).forM fun key => exprSql unparser key.expr.unqualify with
    | error why =>
      rw [written] at built
      cases built
    | ok done =>
      rw [written] at built
      cases built
      rfl

lemma peel_body (body : lp.isBody) : lp.peelScanTail order top = (lp,order,top) := by
  cases lp with
  | sort => cases body
  | limit => cases body
  | _ => rfl

lemma perm_map_iff {items : List α} {out : List β} :
    (∃ rows : List α, rows.Perm items ∧ out = rows.map image) ↔ out.Perm (items.map image) := by
  constructor
  · rintro ⟨rows,same,rfl⟩
    exact same.map _
  · exact exists_perm_of_map

lemma perm_filter_iff {items out : List α} :
    (∃ rows : List α, rows.Perm items ∧ out = rows.filter keep) ↔ out.Perm (items.filter keep) := by
  constructor
  · rintro ⟨rows,same,rfl⟩
    exact same.filter _
  · intro same
    refine ⟨out ++ items.filter fun item => !keep item,
      (same.append_right _).trans (filter_append_perm _ _),?_⟩
    have kept : out.filter keep = out := filter_eq_self.mpr fun item mem => (mem_filter.mp (same.subset mem)).2
    simp [kept]

lemma answers_body (body : lp.isBody) : lp.Answers db out ↔ out.Perm (lp.eval db) := by
  induction lp using LogicalPlan.inputs_induction generalizing out with
  | step lp ih =>
    cases lp with
    | sort => cases body
    | limit => cases body
    | filter predicate input =>
      simp only [LogicalPlan.Answers,ih input mem_cons_self body,LogicalPlan.eval]
      exact perm_filter_iff
    | projection exprs input =>
      simp only [LogicalPlan.Answers,ih input mem_cons_self body,LogicalPlan.eval]
      exact perm_map_iff
    | subqueryAlias name input =>
      simp only [LogicalPlan.Answers,ih input mem_cons_self body,LogicalPlan.eval]
      exact perm_map_iff
    | _ => rfl

lemma answers_sortKept (kept : lp.sortKept top) :
    (∃ rows, lp.Answers db rows ∧ out = takeUpTo top rows) ↔
    Cut ((lp.peelScanTail none top).1.eval db)
      (fun ordered => ∀ keys ∈ (lp.peelScanTail none top).2.1, Ordered db keys id ordered)
      (lp.peelScanTail none top).2.2 out := by
  have unsorted : ∀ body : LogicalPlan, body.isBody → ((∃ rows, body.Answers db rows ∧ out = takeUpTo top rows) ↔
        Cut ((body.peelScanTail none top).1.eval db)
          (fun ordered => ∀ keys ∈ (body.peelScanTail none top).2.1, Ordered db keys id ordered)
          (body.peelScanTail none top).2.2 out) := by
    intro body plain
    rw [peel_body plain]
    simp only [answers_body plain]
    constructor
    · rintro ⟨rows,same,rfl⟩
      exact ⟨rows,same,nofun,rfl⟩
    · rintro ⟨rows,same,_,rfl⟩
      exact ⟨rows,same,rfl⟩
  cases lp with
  | sort keys fetch input =>
    rw [LogicalPlan.sortKept,Bool.and_eq_true] at kept
    obtain ⟨enough,plain⟩ := kept
    have cut : ∀ rows, takeUpTo top (takeUpTo fetch rows) = takeUpTo top rows := by
      intro rows
      cases fetch with
      | none => rfl
      | some most =>
        cases top with
        | none => cases enough
        | some count =>
          have less : count ≤ most := by simpa using enough
          simp only [takeUpTo,elim_some,take_take,Nat.min_eq_left less]
    rw [LogicalPlan.peelScanTail,peel_body plain]
    simp only [LogicalPlan.Answers,answers_body plain]
    constructor
    · rintro ⟨_,⟨rows,ordered,same,arranged,sorted,rfl⟩,rfl⟩
      refine ⟨ordered,arranged.trans same,?_,cut ordered⟩
      rintro _ ⟨⟩
      exact sorted
    · rintro ⟨ordered,same,sorted,rfl⟩
      exact ⟨_,⟨ordered,ordered,same,List.Perm.refl _,sorted keys rfl,rfl⟩,(cut ordered).symm⟩
  | _ => exact unsorted _ kept

lemma answers_iff (kept : lp.tailKept) :
    lp.Answers db out ↔
    Cut (lp.scanBody.eval db) (fun ordered => ∀ keys ∈ lp.scanOrder, Ordered db keys id ordered)
      (lp.peelScanTail none none).2.2 out := by
  have unlimited : ∀ plan : LogicalPlan, plan.sortKept none → (plan.Answers db out ↔
      Cut (plan.scanBody.eval db) (fun ordered => ∀ keys ∈ plan.scanOrder, Ordered db keys id ordered)
        (plan.peelScanTail none none).2.2 out) := by
    intro plan single
    rw [LogicalPlan.scanBody,LogicalPlan.scanOrder,← answers_sortKept single]
    simp [takeUpTo]
  cases lp with
  | limit skip fetch input =>
    simp only [LogicalPlan.tailKept,Bool.and_eq_true] at kept
    obtain ⟨⟨zero,written⟩,single⟩ := kept
    have nothing : (skip.elim 0 fun count => count.value) = 0 := by
      cases skip with
      | none => rfl
      | some count => simpa using zero
    have peeled : (LogicalPlan.limit skip fetch input).peelScanTail none none =
        input.peelScanTail none (fetch.map (·.value)) := by
      cases fetch with
      | none => rfl
      | some count =>
        obtain ⟨value,literal⟩ := count
        obtain rfl : literal = true := written
        rfl
    rw [LogicalPlan.scanBody,LogicalPlan.scanOrder,peeled,← answers_sortKept single]
    simp only [LogicalPlan.Answers,nothing,drop_zero]
  | _ => exact unlimited _ kept

lemma gathered_leaf (cluster : Cluster) :
    cluster.gathered [⟨0,body,[],[],.hash⟩] =
      (cluster.workers.flatMap fun worker => body.eval worker).map Row.fields := by
  unfold Cluster.gathered Cluster.run
  simp [Cluster.step,Cluster.runStage,Cluster.tasks,map_flatMap]

namespace Sample

def dims : List Fields := [[("k",.num 1)],[("k",.num 2)]]

def cheapest : LogicalPlan :=
  .limit none (some ⟨1,true⟩) (.sort [⟨.column (column "fact" "v"),true,true⟩] none
    (.projection [(.column (column "fact" "v"),column "fact" "v")]
      (.join .inner equalKeys (scan "fact" ["k","v"]) (scan "dim" ["k"]))))

def cheapestQuery : DistributedQuery where
  stages := [⟨0,cheapest.scanBody,[],[],.hash⟩]
  finalize := some ⟨cheapest.scanOrder,some 1⟩

lemma cheapest_found : cheapest.orderFound := by
  rintro _ ⟨⟩
  refine ⟨by decide,?_⟩
  intro key mem asked there
  obtain rfl := mem_singleton.mp mem
  obtain rfl := mem_singleton.mp there
  exact ⟨column "fact" "v",mem_singleton_self _,by decide⟩

lemma cheapest_answer :
    cheapest.Answers (tables [[("k",.num 1),("v",.num 7)],[("k",.num 2),("v",.num 5)]] dims)
      [[(column "fact" "v",.num 5)]] :=
  ⟨[[(column "fact" "v",.num 5)],[(column "fact" "v",.num 7)]],
    ⟨[[(column "fact" "v",.num 7)],[(column "fact" "v",.num 5)]],_,
      (answers_body rfl).mpr (by decide),List.Perm.swap _ _ [],by unfold Ordered; decide,rfl⟩,rfl⟩

def everyDim : LogicalPlan :=
  .join .right equalKeys (scan "fact" ["k"]) (scan "dim" ["k"])

def everyDimQuery : DistributedQuery where
  stages := [⟨0,everyDim,[],[],.hash⟩]
  finalize := none

end Sample
end Oxidant.Planner
