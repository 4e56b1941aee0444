import Oxidant.AutoCdc.Merge
import Oxidant.Lib.Batching

/-! The merge as one of events into a keyed table, and what of its outcome depends on how the events
are cut into micro-batches, each merged into what the ones before it left. -/
namespace Oxidant.AutoCdc
open Streaming Lib Keyed List
open Option hiding map_map

section Cells
lemma read_caseless (row) (same : column.toLower = other.toLower) :
    read names column row = read names other row := by
  unfold read
  rw [same]

lemma read_map (mem : ∃ found ∈ columns, found.toLower = column.toLower)
    (caseless : ∀ found, found.toLower = column.toLower → cell found = cell column) :
    read columns column (columns.map cell) = cell column := by
  obtain ⟨found,among,same⟩ := mem
  unfold read Row.cell
  cases there : columns.findIdx? fun found => found.toLower == column.toLower with
  | none =>
    rw [findIdx?_eq_none_iff] at there
    simp only [beq_eq_false_iff_ne] at there
    exact absurd same (there found among)
  | some index =>
    obtain ⟨inside,here,_⟩ := findIdx?_eq_some_iff_getElem.mp there
    have here : (columns.get ⟨index,inside⟩).toLower = column.toLower := by simpa using here
    simp [inside]
    exact caseless _ here

end Cells

namespace Statement
variable (statement : Statement) (names : List String)

def upsert : Upsert (List (Option Scalar)) Scalar Scored Row where
  key event := statement.keyOf names event.row
  seq event := (statement.seqOf names event.row).getD (.int 0)
  deletes := Scored.del
  truncates := Scored.trunc
  rowKey := statement.keyOf statement.columns
  rowSeq row := (statement.seqOf statement.columns row).getD (.int 0)
  make event := statement.project names event.row

structure Resolved : Prop where
  keys : ∀ key ∈ statement.keys, ∃ column ∈ statement.columns, column.toLower = key.toLower
  seq : ∃ column ∈ statement.columns, column.toLower = statement.seq.toLower

/-- A row as the merge leaves it: it has a sequence value, and each column reads as it was
written. -/
structure Sound (row : Row) : Prop where
  seq : (statement.seqOf statement.columns row).isSome = true
  projected : (statement.columns.map fun column => read statement.columns column row) = row

variable {statement names}

lemma projectCell_caseless (same : column.toLower = other.toLower) :
    statement.projectCell names event base column = statement.projectCell names event base other := by
  unfold projectCell
  rw [same,read_caseless event same]
  cases base with
  | none => rfl
  | some row =>
    dsimp only
    rw [read_caseless row same]

lemma read_project (mem : ∃ found ∈ statement.columns, found.toLower = column.toLower) :
    read statement.columns column (statement.project names event base) =
      statement.projectCell names event base column :=
  read_map mem fun _ same => projectCell_caseless same

lemma project_seq (resolved : statement.Resolved) (some : (statement.seqOf names event).isSome = true) :
    statement.seqOf statement.columns (statement.project names event base) = statement.seqOf names event := by
  unfold seqOf at some ⊢
  rw [read_project resolved.seq]
  unfold projectCell
  have none : (read names statement.seq event).isNone = false := by
    rw [← not_isSome,some]
    rfl
  cases base with
  | none => simp
  | some row => simp [none]

lemma project_key (resolved : statement.Resolved)
    (same : ∀ row, base = some row → statement.keyOf statement.columns row = statement.keyOf names event) :
    statement.keyOf statement.columns (statement.project names event base) = statement.keyOf names event := by
  apply map_congr_left
  intro key mem
  rw [read_project (resolved.keys key mem)]
  unfold projectCell
  cases base with
  | none => simp
  | some row =>
    have equal := map_inj_left.mp (same row rfl) key mem
    dsimp only
    split
    · split
      · exact equal
      · rfl
    · rfl

lemma Sound.project (resolved : statement.Resolved) (some : (statement.seqOf names event).isSome = true) (base) :
    statement.Sound (statement.project names event base) :=
  ⟨by rw [project_seq resolved some,some],(map_congr_left fun column mem => read_project ⟨column,mem,rfl⟩)⟩

lemma lawful (resolved : statement.Resolved) (some : (statement.seqOf names event.row).isSome = true) :
    (statement.upsert names).Lawful event where
  make_key base same := project_key resolved same
  make_seq base := by
    change (statement.seqOf statement.columns (statement.project names event.row base)).getD _ = _
    rw [project_seq resolved some]
    rfl

section Answer
variable {scored latest : List Scored} {live : List Row}

lemma isPast_some (truncAt seq) : isPast truncAt (some seq) = Upsert.past truncAt seq := by
  cases truncAt with
  | none => rfl
  | some top => simp [isPast,gt,Upsert.past]

lemma seqOf_event (some_ : (statement.seqOf names event.row).isSome = true) :
    statement.seqOf names event.row = some ((statement.upsert names).seq event) := by
  obtain ⟨seq,there⟩ := isSome_iff_exists.mp some_
  simp [upsert,there]

lemma seqOf_row {row : Row} (sound : statement.Sound row) :
    statement.seqOf statement.columns row = some ((statement.upsert names).rowSeq row) := by
  obtain ⟨seq,there⟩ := isSome_iff_exists.mp sound.seq
  simp [upsert,there]

section
variable (some_ : ∀ event ∈ scored, (statement.seqOf names event.row).isSome = true)
include some_

lemma truncAt_eq : statement.truncAt names scored = (statement.upsert names).cut scored := by
  unfold truncAt Upsert.cut
  congr 1
  induction scored with
  | nil => rfl
  | cons event rest ih =>
    have ih := ih fun other mem => some_ other (mem_cons_of_mem _ mem)
    have here := seqOf_event (some_ event mem_cons_self)
    rw [filterMap_cons,ih]
    cases truncates : event.trunc with
    | true =>
      rw [filter_cons_of_pos (by simpa [upsert] using truncates),if_pos rfl,here]
      rfl
    | false => rw [filter_cons_of_neg (by simpa [upsert] using truncates),if_neg (by simp)]

lemma latest_eq :
    statement.latest names scored =
      firstPerKey (statement.upsert names).key (statement.before names)
        ((statement.upsert names).applicable scored) := by
  unfold latest Upsert.applicable
  congr 1
  apply filter_congr
  intro event mem
  rw [truncAt_eq some_,seqOf_event (some_ event mem),isPast_some]
  rfl

lemma live_eq (sound : ∀ row ∈ target, statement.Sound row) :
    statement.live names scored target = (statement.upsert names).live scored target := by
  apply filter_congr
  intro row mem
  rw [truncAt_eq some_,seqOf_row (sound row mem),isPast_some]

end

lemma kept_eq (some_ : ∀ event ∈ latest, (statement.seqOf names event.row).isSome = true)
    (sound : ∀ row ∈ live, statement.Sound row) :
    statement.kept names latest live = (statement.upsert names).kept latest live := by
  have same : (live.filter fun row => !latest.any fun event =>
      decide (statement.keyOf names event.row = statement.keyOf statement.columns row) &&
        gt (statement.seqOf names event.row) (statement.seqOf statement.columns row) == some true) =
      (statement.upsert names).kept latest live := by
    apply filter_congr
    intro row mem
    rw [Bool.eq_iff_iff,Bool.not_eq_true',Bool.not_eq_true',List.any_eq_false,List.any_eq_false]
    refine forall₂_congr fun event among => ?_
    rw [seqOf_event (some_ event among),@seqOf_row _ names _ (sound row mem)]
    simp only [gt,Bool.and_eq_true,decide_eq_true_eq,beq_iff_eq,Option.some.injEq]
    exact Iff.rfl
  unfold kept
  rw [same]
  conv_rhs => rw [← map_id ((statement.upsert names).kept latest live)]
  apply map_congr_left
  intro row mem
  exact (sound row (mem_of_mem_filter mem)).projected

lemma applied_eq (some_ : ∀ event ∈ latest, (statement.seqOf names event.row).isSome = true)
    (sound : ∀ row ∈ live, statement.Sound row) :
    statement.applied names latest live = (statement.upsert names).applied latest live := by
  apply filterMap_congr
  rintro ⟨event,base⟩ mem
  obtain ⟨among,matched⟩ := mem_leftJoin mem
  dsimp only
  rw [seqOf_event (some_ event among)]
  cases base with
  | none => rfl
  | some row =>
    rw [bind_some,@seqOf_row _ names _ (sound row (matched row rfl))]
    simp only [gt,isNone_some,Bool.false_or]
    congr 2
    rw [Bool.eq_iff_iff,Bool.and_eq_true,Bool.and_eq_true,beq_iff_eq,Option.some.injEq]
    exact Iff.rfl

lemma scored_some (evaluate batch) :
    ∀ event ∈ statement.scored evaluate names batch, (statement.seqOf names event.row).isSome = true := by
  intro event mem
  obtain ⟨row,among,rfl⟩ := mem_map.mp mem
  exact (mem_filter.mp among).2

lemma run_eq_merge (evaluate batch) (sound : ∀ row ∈ target, statement.Sound row) :
    statement.run evaluate names batch target =
      (statement.upsert names).merge (statement.before names) (statement.scored evaluate names batch) target := by
  have some_ := @scored_some statement names evaluate batch
  have latest : ∀ event ∈ statement.latest names (statement.scored evaluate names batch),
      (statement.seqOf names event.row).isSome = true := fun event mem =>
    some_ event (mem_of_mem_filter (mem_of_mem_firstPerKey mem))
  have live : ∀ row ∈ statement.live names (statement.scored evaluate names batch) target,
      statement.Sound row := fun row mem => sound row (mem_of_mem_filter mem)
  unfold run Upsert.merge
  dsimp only
  rw [kept_eq latest live,applied_eq latest live,latest_eq some_,live_eq some_ sound]

lemma before_decides (some_ : ∀ event ∈ scored, (statement.seqOf names event.row).isSome = true) :
    (statement.upsert names).Decides (statement.before names) scored := by
  intro one here other there less
  unfold before
  rw [seqOf_event (some_ one here),seqOf_event (some_ other there)]
  simp [descending,less]

end Answer

section Nulls
variable (statement) in
def shown (base : Option Row) (column : String) : Option Scalar :=
  base.bind fun row => if (statement.seqOf statement.columns row).isSome
    then read statement.columns column row else none

lemma projectCell_eq :
    statement.projectCell names event base column =
      if statement.ignore.contains column.toLower then (read names column event).or (statement.shown base column)
      else read names column event := by
  unfold projectCell shown
  split
  · cases read names column event with
    | some value => cases base <;> simp
    | none => cases base <;> simp
  · rfl

lemma project_eq_iff :
    statement.project names last base = statement.project names last other ↔
    ∀ column ∈ statement.columns, statement.ignore.contains column.toLower = true → read names column last = none →
      statement.shown base column = statement.shown other column := by
  unfold project
  rw [map_inj_left]
  refine forall₂_congr fun column _ => ?_
  rw [projectCell_eq,projectCell_eq]
  cases statement.ignore.contains column.toLower with
  | false => simp
  | true => cases read names column last <;> simp

lemma shown_project (resolved : statement.Resolved)
    (some_ : (statement.seqOf names event).isSome = true) (mem : column ∈ statement.columns)
    (ignored : statement.ignore.contains column.toLower = true) :
    statement.shown (some (statement.project names event base)) column =
      (read names column event).or (statement.shown base column) := by
  have seq := (Sound.project resolved some_ base).seq
  change (if _ then _ else _) = _
  rw [if_pos seq,read_project ⟨column,mem,rfl⟩,projectCell_eq,if_pos ignored]

lemma layered (resolved : statement.Resolved) {scored : List Scored}
    (some_ : ∀ event ∈ scored, (statement.seqOf names event.row).isSome = true) :
    (statement.upsert names).Layered scored := by
  intro last _ event mem one other same upon
  have same := project_eq_iff.mp same
  have upon := project_eq_iff.mp upon
  refine project_eq_iff.mpr fun column among ignored null => ?_
  have upon := upon column among ignored null
  change statement.shown (some (statement.project names event.row _)) column = _ at upon ⊢
  rw [shown_project resolved (some_ event mem) among ignored] at upon ⊢
  rw [same column among ignored null]
  exact upon

end Nulls
end Statement
section Plan
variable {merge : CdcMerge}

lemma buildMergeSql_ok (builds : buildMergeSql chars config columns = .ok statement) :
    (∀ key ∈ statement.keys, ∃ expr ∈ config.keys, simpleColumn chars expr = some key) ∧ columns = statement.columns ∧
      simpleColumn chars config.sequenceBy = some statement.seq := by
  unfold buildMergeSql at builds
  rw [bind_eq_ok] at builds
  obtain ⟨_,_,builds⟩ := builds
  split at builds
  · simp [bind,Except.bind,throw,throwThe,MonadExceptOf.throw] at builds
  rw [bind_eq_ok] at builds
  obtain ⟨keys,makes,builds⟩ := builds
  rw [bind_eq_ok] at builds
  obtain ⟨seq,simple,builds⟩ := builds
  rw [bind_eq_ok] at builds
  obtain ⟨_,_,builds⟩ := builds
  cases builds
  refine ⟨fun key mem => ?_,rfl,requireColumn_ok.mp simple⟩
  obtain ⟨expr,listed,simple⟩ := mem_of_mapM_eq_ok makes mem
  exact ⟨expr,listed,requireColumn_ok.mp simple⟩

lemma new_resolved (planned : CdcMerge.new chars config schema = .ok merge) :
    merge.statement.Resolved ∧
    (schema.map (·.name)).find? (fun column => column.toLower == merge.statement.seq.toLower) =
      some merge.sequenceColumn := by
  unfold CdcMerge.new at planned
  rw [bind_eq_ok] at planned
  obtain ⟨columns,output,planned⟩ := planned
  obtain ⟨selected,keys,seq,found,simple,there⟩ := outputColumns_ok output
  dsimp only at planned
  split at planned
  · next sequenceColumn resolves =>
    rw [bind_eq_ok] at planned
    obtain ⟨_,same,planned⟩ := planned
    cases same
    rw [bind_eq_ok] at planned
    obtain ⟨statement,builds,planned⟩ := planned
    rw [bind_eq_ok] at planned
    obtain ⟨_,_,done⟩ := planned
    cases done
    obtain ⟨keyNames,names,resolved⟩ := buildMergeSql_ok builds
    obtain rfl : statement.seq = seq := Option.some.inj (resolved.symm.trans simple)
    have resolves : columns.find? (fun column => column.toLower == statement.seq.toLower) = some sequenceColumn := by
      unfold resolveIn at resolves
      rw [simple] at resolves
      exact resolves
    refine ⟨⟨fun key mem => ?_,?_⟩,selectedColumns_first selected resolves⟩
    · obtain ⟨expr,listed,plain⟩ := keyNames key mem
      obtain ⟨name,column,simple,found⟩ := keys expr listed
      obtain rfl : key = name := Option.some.inj (plain.symm.trans simple)
      have same := find?_some found
      exact ⟨column,names ▸ mem_of_find?_eq_some found,by simpa using same⟩
    · have same := find?_some there
      exact ⟨found,names ▸ mem_of_find?_eq_some there,by simpa using same⟩
  · simp [bind,Except.bind,throw,throwThe,MonadExceptOf.throw] at planned

private lemma findIdx?_of_find? {names : List String} (there : names.find? passes = some found) :
    names.findIdx? (· == found) = names.findIdx? passes := by
  have right := find?_some there
  induction names with
  | nil => rfl
  | cons name rest ih =>
    rw [findIdx?_cons,findIdx?_cons]
    cases passed : passes name with
    | true =>
      rw [find?_cons,passed] at there
      cases there
      simp
    | false =>
      rw [find?_cons,passed] at there
      have apart : (name == found) = false := by
        rw [beq_eq_false_iff_ne]
        rintro rfl
        rw [right] at passed
        cases passed
      rw [apart]
      rw [ih there]

lemma apply_ok (planned : CdcMerge.new chars config schema = .ok merge) (evaluate) {rows target : List Row}
    (sequenced : ∀ row ∈ rows, (merge.statement.seqOf (schema.map (·.name)) row).isSome = true) :
    merge.apply evaluate [⟨schema,rows⟩] target =
      .ok (merge.statement.run evaluate (schema.map (·.name)) rows target) := by
  have place := findIdx?_of_find? (new_resolved planned).2
  have none : merge.rejectNullSequence [⟨schema,rows⟩] = .ok () := by
    have index : RecordBatch.indexOf ⟨schema,rows⟩ merge.sequenceColumn = (schema.map (·.name)).findIdx?
          (fun column => column.toLower == merge.statement.seq.toLower) := by
      rw [← place]
      rw [findIdx?_map]
      rfl
    have nulls : ∀ index, (schema.map (·.name)).findIdx?
        (fun column => column.toLower == merge.statement.seq.toLower) = some index →
        rows.filter (fun row => (Row.cell row index).isNone) = [] := by
      intro index there
      rw [filter_eq_nil_iff]
      intro row mem
      have some_ := sequenced row mem
      unfold Statement.seqOf read at some_
      rw [there,bind_some] at some_
      rw [isNone_iff_eq_none]
      intro null
      rw [null] at some_
      cases some_
    unfold CdcMerge.rejectNullSequence
    simp only [filterMap_cons,filterMap_nil,index]
    cases there : (schema.map (·.name)).findIdx? (fun column => column.toLower == merge.statement.seq.toLower) with
    | none => rfl
    | some index => simp [nulls index there]
  unfold CdcMerge.apply
  rw [none]
  simp [bind,Except.bind,pure,Except.pure]

end Plan

section Merging
variable {chars : CharClasses} {config : AutoCdcConfig} {schema : List Field} {merge : CdcMerge}

section Tables
variable {statement : Statement}

variable (statement) in
structure Statement.Merged (table : List Row) : Prop where
  sound : ∀ row ∈ table, statement.Sound row
  distinct : Distinct (statement.keyOf statement.columns) table

lemma Statement.Merged.nil (statement : Statement) : statement.Merged [] where
  sound := by simp
  distinct := nodup_nil

lemma Statement.Merged.run (resolved : statement.Resolved) (evaluate) (merged : statement.Merged target) :
    statement.Merged (statement.run evaluate names rows target) where
  sound row mem := by
    rcases mem_append.mp mem with kept | applied
    · obtain ⟨old,among,rfl⟩ := mem_map.mp kept
      have sound := merged.sound old (mem_of_mem_filter (mem_of_mem_filter among))
      rw [sound.projected]
      exact sound
    · obtain ⟨⟨event,base⟩,joined,makes⟩ := mem_filterMap.mp applied
      have some_ := @Statement.scored_some statement names evaluate rows event
        (mem_of_mem_filter (mem_of_mem_firstPerKey (mem_leftJoin joined).1))
      dsimp only at makes
      split at makes
      · cases makes
        exact .project resolved some_ base
      · cases makes
  distinct := by
    rw [Statement.run_eq_merge evaluate rows merged.sound]
    have distinct : Distinct (statement.upsert names).rowKey target := merged.distinct
    refine Upsert.merge_distinct distinct fun event mem => ?_
    exact Statement.lawful resolved (Statement.scored_some evaluate rows event mem)

def CdcMerge.applyAll (merge : CdcMerge) (evaluate : Evaluate) (schema : List Field)
    (batches : List (List Row)) (target : List Row) : Except Error (List Row) :=
  batches.foldlM (fun target rows => merge.apply evaluate [⟨schema,rows⟩] target) target

lemma applyAll_merged (resolved : merge.statement.Resolved) (merged : merge.statement.Merged target)
    (applies : merge.applyAll evaluate schema batches target = .ok table) :
    merge.statement.Merged table := by
  unfold CdcMerge.applyAll at applies
  induction batches generalizing target with
  | nil =>
    cases applies
    exact merged
  | cons rows rest ih =>
    rw [foldlM_cons,bind_eq_ok] at applies
    obtain ⟨middle,first,applies⟩ := applies
    refine ih ?_ applies
    unfold CdcMerge.apply at first
    rw [bind_eq_ok] at first
    obtain ⟨_,_,first⟩ := first
    cases first
    exact merged.run resolved evaluate

end Tables

section Sequenced
variable {statement : Statement}

variable (statement names) in
structure Statement.Sequenced (events : List Row) : Prop where
  present : ∀ row ∈ events, (statement.seqOf names row).isSome = true
  increasing : events.Pairwise fun one other =>
    gt (statement.seqOf names other) (statement.seqOf names one) = some true

variable (statement names) in
def Statement.score (evaluate : Evaluate) (row : Row) : Scored where
  row
  del := Statement.boolExpr evaluate names statement.deletes row
  trunc := Statement.boolExpr evaluate names statement.truncates row

lemma Statement.scored_eq (present : ∀ row ∈ events, (statement.seqOf names row).isSome = true) :
    statement.scored evaluate names events = events.map (statement.score names evaluate) := by
  unfold scored
  rw [filter_eq_self.mpr present]
  rfl

lemma Statement.Sequenced.scored_increasing (sequenced : statement.Sequenced names events) :
    (statement.upsert names).Increasing (statement.scored evaluate names events) := by
  rw [scored_eq sequenced.present]
  refine List.Pairwise.map _ (fun _ _ less => less) (sequenced.increasing.imp_of_mem ?_)
  intro one other here there less
  obtain ⟨low,first⟩ := Option.isSome_iff_exists.mp (sequenced.present one here)
  obtain ⟨high,second⟩ := Option.isSome_iff_exists.mp (sequenced.present other there)
  rw [first,second] at less
  change (statement.seqOf names one).getD _ < (statement.seqOf names other).getD _
  rw [first,second]
  simpa [gt] using less

lemma applyAll_ok (planned : CdcMerge.new chars config schema = .ok merge) (evaluate)
    (merged : merge.statement.Merged target)
    (present : ∀ row ∈ batches.flatten, (merge.statement.seqOf (schema.map (·.name)) row).isSome = true) :
    merge.applyAll evaluate schema batches target =
      .ok ((merge.statement.upsert (schema.map (·.name))).run (merge.statement.before (schema.map (·.name)))
          (batches.map (merge.statement.scored evaluate (schema.map (·.name)))) target) := by
  have resolved := (new_resolved planned).1
  unfold CdcMerge.applyAll Upsert.run
  induction batches generalizing target with
  | nil => rfl
  | cons rows rest ih =>
    rw [foldlM_cons,apply_ok planned evaluate fun row mem => present row (mem_append_left _ mem)]
    change List.foldlM _ _ rest = _
    rw [ih (merged.run resolved evaluate) fun row mem =>
      present row (mem_append_right _ mem),Statement.run_eq_merge evaluate rows merged.sound]
    rfl

section Nulls
variable (statement names) in
/-- Of a key's events, none before the last changes what the nulls of the last fall back to. -/
def Statement.NullsSettle (base : Option Row) (events : List Scored) : Prop :=
  ∀ earlier last, events = earlier ++ [last] → last.del = false → ∀ event ∈ earlier, ∀ column ∈ statement.columns,
      statement.ignore.contains column.toLower = true → read names column last.row = none → (if event.del then none
          else (read names column event.row).or (statement.shown base column)) =
          statement.shown base column

lemma Statement.settles_iff (resolved : statement.Resolved) {scored : List Scored}
    (present : ∀ event ∈ scored, (statement.seqOf names event.row).isSome = true) :
    (statement.upsert names).Settles base scored ↔ statement.NullsSettle names base scored := by
  refine forall₄_congr fun earlier last whole _ => forall₂_congr fun event mem => ?_
  have some_ := present event (whole ▸ mem_append_left _ mem)
  refine project_eq_iff.trans (forall₄_congr fun column among ignored _ => ?_)
  change statement.shown (if event.del = true then none else some (statement.project names event.row base))
    column = _ ↔ _
  cases event.del with
  | true => rfl
  | false => rw [if_neg Bool.false_ne_true,if_neg Bool.false_ne_true,shown_project resolved some_ among ignored]

end Nulls

lemma Statement.cuts_iff (present : ∀ row ∈ events, (statement.seqOf names row).isSome = true)
    (holds : List (List Scored) → Prop) :
    (∀ batches : List (List Row), batches.flatten = events → holds (batches.map (statement.scored evaluate names))) ↔
      ∀ batches, batches.flatten = statement.scored evaluate names events → holds batches := by
  rw [scored_eq present]
  constructor
  · intro rows batches whole
    have back : batches.map (fun batch => statement.scored evaluate names (batch.map Scored.row)) =
        batches := by
      conv_rhs => rw [← map_id batches]
      refine map_congr_left fun batch mem => ?_
      have from_ : ∀ event ∈ batch, ∃ row ∈ events, statement.score names evaluate row = event :=
        fun event among => mem_map.mp (whole ▸ mem_flatten_of_mem mem among)
      have present : ∀ row ∈ batch.map Scored.row, (statement.seqOf names row).isSome = true := by
        intro row among
        obtain ⟨event,inside,rfl⟩ := mem_map.mp among
        obtain ⟨row,there,rfl⟩ := from_ event inside
        exact present row there
      rw [scored_eq present,map_map,id]
      conv_rhs => rw [← map_id batch]
      refine map_congr_left fun event among => ?_
      obtain ⟨row,_,rfl⟩ := from_ event among
      rfl
    have whole : (batches.map (List.map Scored.row)).flatten = events := by
      rw [← map_flatten,whole,map_map]
      exact map_id events
    have held := rows _ whole
    rw [map_map] at held
    exact back ▸ held
  · rintro all batches rfl
    apply all _
    rw [map_flatten]
    congr 1
    refine map_congr_left fun batch mem => scored_eq fun row among => ?_
    exact present row (mem_flatten_of_mem mem among)

end Sequenced

/-- Every cut into micro-batches leaves what one event per batch leaves exactly if for every key the
nulls of the last event that counts are settled. -/
theorem cuts_agree_iff (planned : CdcMerge.new chars config schema = .ok merge)
    (evaluate : Evaluate) {events target : List Row} (merged : merge.statement.Merged target)
    (sequenced : merge.statement.Sequenced (schema.map (·.name)) events) :
    (∀ batches : List (List Row), batches.flatten = events → ∃ cut singles,
      merge.applyAll evaluate schema batches target = .ok cut ∧
      merge.applyAll evaluate schema (events.map fun event => [event]) target = .ok singles ∧
      cut.Perm singles) ↔
    ∀ wanted,
      let names := schema.map (·.name)
      let upsert := merge.statement.upsert names
      let scored := merge.statement.scored evaluate names events
      let base := row upsert.rowKey target wanted
      merge.statement.NullsSettle names (upsert.survives scored base)
        (scored.filter (upsert.counts scored base wanted)) := by
  have resolved := (new_resolved planned).1
  have present := @Statement.scored_some merge.statement (schema.map (·.name)) evaluate events
  have distinct := merged.distinct
  have agree := Upsert.run_perm_iff (Statement.before_decides present) distinct (sequenced.scored_increasing)
    (fun event mem => Statement.lawful resolved (present event mem))
    (Statement.layered resolved present)
  have singles : (merge.statement.scored evaluate (schema.map (·.name)) events).map (fun event =>
      [event]) = (events.map fun event => [event]).map (merge.statement.scored evaluate (schema.map (·.name))) := by
    rw [Statement.scored_eq sequenced.present,map_map,map_map]
    refine map_congr_left fun event mem => ?_
    exact (Statement.scored_eq fun row single => by
      rw [mem_singleton.mp single]
      exact sequenced.present event mem).symm
  rw [singles,← Statement.cuts_iff sequenced.present fun batches =>
    (Upsert.run _ _ batches target).Perm _] at agree
  refine Iff.trans (forall₂_congr fun batches whole => ?_) (agree.trans (forall_congr' fun wanted =>
    Statement.settles_iff resolved fun event mem => present event (mem_of_mem_filter mem)))
  have one := applyAll_ok planned evaluate merged (whole ▸ sequenced.present)
  have other := applyAll_ok planned evaluate merged (by rw [Upsert.flatten_singles]; exact sequenced.present)
  constructor
  · rintro ⟨cut,singles,first,second,perm⟩
    cases one.symm.trans first
    cases other.symm.trans second
    exact perm
  · exact fun perm => ⟨_,_,one,other,perm⟩

/-- Whatever batches of changes a flow merges, its table has one row per key, each with a sequence. -/
theorem target_merged (planned : CdcMerge.new chars config schema = .ok merge)
    (applies : merge.applyAll evaluate schema batches [] = .ok table) : merge.statement.Merged table :=
  applyAll_merged (new_resolved planned).1 (.nil _) applies

end Merging

namespace Sample

lemma isWhitespace_of (solid : Char → Bool)
    (apart : solid ' ' = false ∧ solid '\t' = false ∧ solid '\r' = false ∧ solid '\n' = false) (c)
    (holds : solid c = true) : c.isWhitespace = false := by
  rw [Bool.eq_false_iff]
  intro blank
  simp only [Char.isWhitespace,Bool.or_eq_true,decide_eq_true_eq] at blank
  obtain ⟨space,tab,return_,newline⟩ := apart
  rcases blank with ((rfl | rfl) | rfl) | rfl <;> simp_all

def ascii : CharClasses where
  isAlphabetic := Char.isAlpha
  isAlphanumeric := Char.isAlphanum
  isWhitespace := Char.isWhitespace
  alphabetic := isWhitespace_of _ (by decide)
  alphanumeric := isWhitespace_of _ (by decide)
  underscore := rfl

def schema : List Field := [⟨"id",.int64⟩,⟨"name",.utf8⟩,⟨"seq",.int64⟩]

def config : AutoCdcConfig where
  source := "changes"
  keys := ["id"]
  sequenceBy := "seq"
  ignoreNullUpdatesColumns := some ["name"]

def merge : CdcMerge where
  columns := ["id","name","seq"]
  sequenceColumn := "seq"
  statement :=
    { columns := ["id","name","seq"]
      keys := ["id"]
      seq := "seq"
      ignore := ["name"]
      deletes := none
      truncates := none }

def unknown : Evaluate := fun _ _ _ => none

def change (id : Int) (name : Option String) (seq : Int) : Row :=
  [some (.int id),name.map .text,some (.int seq)]

end Sample

open Sample in
theorem cuts_agree_renamed :
    Sample.merge.statement.Sequenced (Sample.schema.map (·.name)) [change 1 "a" 1,change 1 "b" 2] ∧
    ∀ batches : List (List Row), batches.flatten = [change 1 "a" 1,change 1 "b" 2] →
      ∃ cut singles, Sample.merge.applyAll unknown Sample.schema batches [] = .ok cut ∧
        Sample.merge.applyAll unknown Sample.schema [[change 1 "a" 1],[change 1 "b" 2]] [] = .ok singles ∧
        cut.Perm singles := by
  have planned : CdcMerge.new ascii Sample.config Sample.schema = .ok Sample.merge := by decide +kernel
  have sequenced : Sample.merge.statement.Sequenced (Sample.schema.map (·.name))
      [change 1 "a" 1,change 1 "b" 2] := ⟨by decide +kernel,by decide +kernel⟩
  refine ⟨sequenced,(cuts_agree_iff planned unknown (.nil _) sequenced).mpr ?_⟩
  intro wanted names upsert scored base earlier last whole _ event _ column _ ignored null
  have among : last ∈ scored :=
    mem_of_mem_filter (whole ▸ mem_append_right _ (mem_singleton_self _))
  have named : ∀ last ∈ scored, ∀ column ∈ Sample.merge.statement.columns,
      Sample.merge.statement.ignore.contains column.toLower = true →
      (read names column last.row).isSome = true := by decide +kernel
  have some_ := named last among column ‹_› ignored
  rw [null] at some_
  cases some_

open Sample in
/-- A null update in one batch with the insert it follows loses the inserted value. -/
theorem null_update_cut :
    CdcMerge.new ascii Sample.config Sample.schema = .ok Sample.merge ∧
    Sample.merge.applyAll unknown Sample.schema [[change 1 "a" 1,change 1 none 2]] [] = .ok [change 1 none 2] ∧
    Sample.merge.applyAll unknown Sample.schema [[change 1 "a" 1],[change 1 none 2]] [] = .ok [change 1 "a" 2] := by
  decide +kernel

open Sample in
theorem null_update_merged : Sample.merge.statement.Merged [change 1 none 2] :=
  @target_merged ascii Sample.config Sample.schema Sample.merge unknown [[change 1 "a" 1,change 1 none 2]] _
    (by decide +kernel) (by decide +kernel)

end Oxidant.AutoCdc
