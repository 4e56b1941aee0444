import Oxidant.LakeFormation.StagePlans
import Oxidant.Lib.Steps

/-! A stage that must be governed executes only plans over tables of its own principal's catalogs, in
every run in which the plans it takes from the cache were built for stages of its standing. A
decision that a plan is served from is at most the time to live old, and the time of a build on top,
in every run in which lakehouse entries, freshly written tables and cached plans are not used past
it. -/
namespace Oxidant.LakeFormation
open Lib

namespace Standing

def governs (standing : Standing) : Option String :=
  if standing.required && standing.principal ≠ "" then some standing.principal else none

/-- A stage that must be governed scans only tables of catalogs that authorize its principal. -/
def Admits (standing : Standing) (provider : ResolvedTable) : Prop :=
  ∀ principal ∈ standing.governs, provider.principal = some principal

instance (standing : Standing) (provider : ResolvedTable) : Decidable (standing.Admits provider) :=
  inferInstanceAs (Decidable (∀ principal ∈ standing.governs, _))

lemma admits_of_checkRequired {provider : SchemaProvider} (allowed : provider.checkRequired standing table = .ok ())
    (source : found.principal = provider.authorizer) : standing.Admits found := by
  intro principal governed
  unfold governs at governed
  split at governed
  · next must =>
    cases governed
    rw [Bool.and_eq_true,decide_eq_true_eq] at must
    unfold SchemaProvider.checkRequired at allowed
    rw [if_pos must.1] at allowed
    cases given : provider.authorizer with
    | none => simp [given] at allowed
    | some actual =>
      simp only [given] at allowed
      split at allowed
      · cases allowed
      · next same =>
        have equal : actual = standing.principal := by simpa [must.2] using same
        rw [source,given,equal]
  · cases governed

end Standing

namespace WorkerProcess
variable {cfg : CatalogConfig} {planner : Planner} {process : WorkerProcess}

def Governed (process : WorkerProcess) : Prop :=
  ∀ done ∈ process.executed, ∀ provider ∈ done.scans, done.standing.Admits provider

instance : Decidable process.Governed :=
  inferInstanceAs (Decidable (∀ done ∈ process.executed, ∀ provider ∈ done.scans, _))

/-- A stage that must be governed takes from the cache only what was built for its principal. -/
def Matched (process : WorkerProcess) (event : WorkerEvent) : Prop :=
  ∀ use ∈ process.takes event, use.1.governs = none ∨ use.2.builder.governs = use.1.governs

instance (event : WorkerEvent) : Decidable (process.Matched event) :=
  inferInstanceAs (Decidable (∀ use ∈ process.takes event, _))

def attributed : Facts where
  entry _ _ authorizer cached := cached.provider.principal = authorizer
  build _ _ standing build :=
    ∀ provider : ResolvedTable, provider.principal = build.principal → standing.Admits provider
  making _ _ standing _ scans := ∀ provider ∈ scans, standing.Admits provider
  ready plan := ∀ provider ∈ plan.scans, plan.builder.Admits provider
  done _ execution := ∀ provider ∈ execution.scans, execution.standing.Admits provider
  entry_later _ _ same := same
  build_later _ _ fine := fine
  making_later _ _ fine := fine
  done_later _ fine := fine
  written _ _ _ _ _ each := each.insert rfl
  begun _ _ _ := by rintro _ ⟨⟩

lemma answers_attributed (upholds : process.Upholds attributed) :
    process.Answers attributed cfg ref standing pins replicated trouble fun _ provider => standing.Admits provider := by
  intro catalog resolution _ found effect _
  have each := upholds.cached _ _ _ found ref.namespace_
  cases effect with
  | refused fault => exact ⟨each,by rintro _ ⟨⟩⟩
  | absent after bumps less =>
    refine ⟨?_,by rintro _ ⟨⟩⟩
    rcases less with rfl | rfl
    · exact each
    · exact each.remove _
  | hit cached allowed there use =>
    refine ⟨each,?_⟩
    rintro _ ⟨⟩
    exact Standing.admits_of_checkRequired allowed (each _ _ there)
  | kept cached decided allowed there use asked =>
    have source := each _ _ there
    refine ⟨each.insert source,?_⟩
    rintro _ ⟨⟩
    exact Standing.admits_of_checkRequired allowed source
  | begun bumps metadata access allowed =>
    exact ⟨each,fun provider source => Standing.admits_of_checkRequired allowed source⟩

lemma allow_attributed (upholds : process.Upholds attributed) (matched : process.Matched event) :
    attributed.Allow cfg planner process event where
  taken := by
    intro use taken fine provider mem principal governed
    rcases matched use taken with free | same
    · simp [free] at governed
    · exact fine provider mem principal (same.trans governed)
  made index ticket key owned since scans _ running :=
    have fine := upholds.runs _ _ running
    ⟨fine,fine⟩
  touched ref standing pins replicated trouble _ := (answers_attributed upholds).mono fun _ _ _ => trivial
  resolved index ticket key owned since name todo scans trouble _ _ :=
    (answers_attributed upholds).mono fun _ _ admits fine =>
      List.forall_mem_append.mpr ⟨fine,List.forall_mem_singleton.mpr admits⟩
  published build _ standing entry begun makes :=
    ⟨makes.source,fun _ _ fine =>
      List.forall_mem_append.mpr ⟨fine,List.forall_mem_singleton.mpr (begun _ makes.source)⟩⟩

/-- If governed stages take only plans built for their own principal, none scans a table through
another principal's catalog or one without an authorizer. -/
theorem governed_stages_read_governed (fresh : process.Fresh) (events : List WorkerEvent)
    (met : Steps.Meets (step cfg planner) Matched process events) :
    (Steps.run (step cfg planner) process events).Governed := by
  exact (Steps.run_invariant _ _ (Upholds attributed) (fun _ _ upholds allowed =>
    upholds.step (allow_attributed upholds allowed)) _ _ met fresh.upholds).done

namespace Sample

def warehouse (authorizer : Option String) : Engine where
  catalogs name := if name = "glue" then some ⟨0,authorizer,fun _ _ => none⟩ else none
  catalogVersion := 0
  requirePins := false

def orders : TableMetadata := ⟨"db.orders","s3://lake/orders",.parquet,none,[],""⟩

def worker (authorizer : Option String) : WorkerProcess where
  engines _ := warehouse authorizer
  cache := ⟨fun _ => none,[],256⟩
  runs _ := none
  metastore _ := some orders
  policy _ := ⟨some ["id"],none,true⟩

def settings (ttl : Nat) : CatalogConfig := ⟨ttl,fun _ => "0"⟩

def names : Planner := ⟨fun _ => [("glue","db","orders")],fun _ _ => false⟩

def task (standing : Standing) : StageTicket := ⟨0,1,"SELECT * FROM glue.db.orders",[],[],[],standing⟩

def planned (index : Nat) (standing : Standing) : List WorkerEvent :=
  [.enter index (task standing) true,.look index,.resolve index {},.publish index true,.finish index]

lemma worker_fresh : (worker authorizer).Fresh where
  tables _ _ _ found _ _ := by
    unfold worker warehouse at found
    simp only at found
    split at found
    · cases found
      rfl
    · cases found
  entries _ := rfl
  runs _ := rfl
  touched := rfl
  executed := rfl

def sharedPlan : List WorkerEvent :=
  planned 0 ⟨true,"analyst"⟩ ++ [.enter 1 (task ⟨true,"analyst"⟩) true,.look 1]

theorem shared_plan_governed :
    Steps.Meets (step (settings 60000) names) Matched (worker (some "analyst")) sharedPlan ∧
      (Steps.run (step (settings 60000) names) (worker (some "analyst")) sharedPlan).executed.length = 2 ∧
      (Steps.run (step (settings 60000) names) (worker (some "analyst")) sharedPlan).Governed := by
  have met : Steps.Meets (step (settings 60000) names) Matched (worker (some "analyst"))
      sharedPlan := by decide
  exact ⟨met,by decide,governed_stages_read_governed (worker_fresh) sharedPlan met⟩

def ungovernedFirst : List WorkerEvent :=
  planned 0 ⟨false,""⟩ ++ [.enter 1 (task ⟨true,"analyst"⟩) true,.look 1]

theorem cached_plan_ungoverned :
    ¬(Steps.run (step (settings 60000) names) (worker none) ungovernedFirst).Governed := by
  decide

end Sample
end WorkerProcess

open Option

def CachedTable.lakehouse (cached : CachedTable) : Bool :=
  cached.snapshotKey.isSome && cached.snapshot.isSome

lemma SchemaProvider.lakehouse_or_young (use : cacheUse cfg scope cached = .ok .hit) :
    cached.lakehouse ∨ cfg.ttl ≠ 0 ∧ scope.now-cached.resolvedAt < cfg.ttl := by
  unfold cacheUse at use
  split at use
  · next key snapshot keyed shot =>
    left
    simp [CachedTable.lakehouse,keyed,shot]
  · right
    split at use
    · next young => simpa using young
    · cases use

namespace WorkerProcess
variable {cfg : CatalogConfig} {planner : Planner} {process : WorkerProcess}

/-- A decision of the authorizer for a table, given before a time and not too long before. -/
def Decided (process : WorkerProcess) (ttl before since : Nat) (provider : ResolvedTable) : Prop :=
  provider.principal.isSome → ∃ decision ∈ process.decisions,
    decision.1 = provider.serial ∧ decision.2 ≤ before ∧ since ≤ decision.2+ttl

/-- Every plan scans authorized catalogs under decisions given at most the time to live before it
was made. -/
def Recent (ttl : Nat) (process : WorkerProcess) : Prop :=
  ∀ done ∈ process.executed, ∀ provider ∈ done.scans, process.Decided ttl done.at_ done.at_ provider

instance (ttl : Nat) : Decidable (process.Recent ttl) :=
  inferInstanceAs (Decidable (∀ done ∈ process.executed, ∀ provider ∈ done.scans, _ → _))

def entryFor (process : WorkerProcess) (ref : TableRef) (replicated : Bool) : Option (Option String × CachedTable) :=
  (process.catalog ref).bind fun catalog =>
    (catalog.schemas ref.namespace_ ⟨ref.table,replicated,catalog.authorizer.getD ""⟩).map
      fun cached => (catalog.authorizer,cached)

def nextTable (planner : Planner) (process : WorkerProcess) : WorkerEvent → Option (TableRef × Bool)
  | .resolve index _ => match process.runs index with
    | some ⟨ticket,_,.planning _ _ (name::_) _⟩ =>
      some (⟨ticket.engine,name.1,name.2.1,name.2.2⟩, planner.isReplicated ticket.replicated name.2.2)
    | _ => none
  | _ => none

def makes (process : WorkerProcess) : WorkerEvent → Option (Nat × List ResolvedTable)
  | .finish index => match process.runs index with
    | some ⟨_,_,.planning _ since [] scans⟩ => some (since,scans)
    | _ => none
  | _ => none

def troubleOf : WorkerEvent → Option Trouble
  | .resolve _ trouble => some trouble
  | .touch _ _ _ _ trouble => some trouble
  | _ => none

def Current (ttl : Nat) (process : WorkerProcess) (provider : ResolvedTable) : Prop :=
  ∃ replicated : Bool, ∃ entry ∈ process.entryFor provider.ref replicated,
    entry.1.isSome ∧ entry.2.provider.serial = provider.serial ∧ entry.2.fingerprint.isSome ∧
      process.now ≤ entry.2.resolvedAt+ttl

instance (ttl : Nat) (provider : ResolvedTable) : Decidable (process.Current ttl provider) :=
  inferInstanceAs (Decidable (∃ replicated : Bool, ∃ entry ∈ process.entryFor provider.ref replicated,
    _))

/-- The metastore and the authorizer answer, and no build takes longer than `lag`. A lakehouse entry is
resolved only within the time to live, a freshly written table only past it. A plan is taken or made
only while its tables are within theirs. -/
structure Timely (cfg : CatalogConfig) (planner : Planner) (lag : Nat) (process : WorkerProcess)
    (event : WorkerEvent) : Prop where
  reachable : ∀ trouble ∈ troubleOf event,
    trouble.metastoreDown = false ∧ trouble.authorizerDown = false
  prompt : ∀ build ∈ process.published event, process.now ≤ build.scope.now+lag
  resolved : ∀ target ∈ process.nextTable planner event,
    ∀ entry ∈ process.entryFor target.1 target.2, entry.1.isSome →
      (entry.2.lakehouse → process.now ≤ entry.2.resolvedAt+cfg.ttl) ∧
      (entry.2.fingerprint.isSome ∨ cfg.ttl ≤ process.now-entry.2.resolvedAt)
  taken : ∀ use ∈ process.takes event, ∀ provider ∈ use.2.scans, provider.principal.isSome →
    process.Current cfg.ttl provider
  made : ∀ plan ∈ process.makes event, plan.1 = process.now ∨
    ∀ provider ∈ plan.2, provider.principal.isSome → process.Current cfg.ttl provider

lemma timely_iff :
    process.Timely cfg planner lag event ↔
    (∀ trouble ∈ troubleOf event, trouble.metastoreDown = false ∧ trouble.authorizerDown = false) ∧
      (∀ build ∈ process.published event, process.now ≤ build.scope.now+lag) ∧
      (∀ target ∈ process.nextTable planner event, ∀ entry ∈ process.entryFor target.1 target.2, entry.1.isSome →
            (entry.2.lakehouse → process.now ≤ entry.2.resolvedAt+cfg.ttl) ∧
              (entry.2.fingerprint.isSome ∨ cfg.ttl ≤ process.now-entry.2.resolvedAt)) ∧
      (∀ use ∈ process.takes event,
          ∀ provider ∈ use.2.scans, provider.principal.isSome → process.Current cfg.ttl provider) ∧
      (∀ plan ∈ process.makes event, plan.1 = process.now ∨
          ∀ provider ∈ plan.2, provider.principal.isSome → process.Current cfg.ttl provider) := by
  constructor
  · intro timely
    exact ⟨timely.reachable,timely.prompt,timely.resolved,timely.taken,timely.made⟩
  · intro ⟨reachable,prompt,resolved,taken,made⟩
    exact ⟨reachable,prompt,resolved,taken,made⟩

instance (event : WorkerEvent) : Decidable (process.Timely cfg planner lag event) :=
  decidable_of_iff _ timely_iff.symm

/-- The decision an entry rests on was given at most `lag` before the entry was stamped. -/
structure Stamped (lag : Nat) (decisions : List (Nat × Nat)) (now : Nat) (authorizer : Option String)
    (entry : CachedTable) : Prop where
  source : entry.provider.principal = authorizer
  past : entry.resolvedAt ≤ now
  printed : entry.lakehouse → entry.fingerprint.isSome
  decided : authorizer.isSome → entry.fingerprint.isSome → ∃ given, (entry.provider.serial,given) ∈ decisions ∧
    given ≤ entry.resolvedAt ∧ entry.resolvedAt ≤ given+lag

lemma Stamped.mono {decisions more : List (Nat × Nat)} {now later : Nat}
    (stamped : Stamped lag decisions now authorizer entry) (sub : decisions ⊆ more) (after : now ≤ later) :
    Stamped lag more later authorizer entry := by
  refine ⟨stamped.source,stamped.past.trans after,stamped.printed,fun some_ printed => ?_⟩
  obtain ⟨given,there,bounds⟩ := stamped.decided some_ printed
  exact ⟨given,sub there,bounds⟩

def Covered (decisions : List (Nat × Nat)) (age before since : Nat) (provider : ResolvedTable) : Prop :=
  provider.principal.isSome → ∃ decision ∈ decisions,
    decision.1 = provider.serial ∧ decision.2 ≤ before ∧ since ≤ decision.2+age

lemma Covered.later {decisions more : List (Nat × Nat)} {age before later since : Nat}
    (covered : Covered decisions age before since provider) (sub : decisions ⊆ more) (after : before ≤ later) :
    Covered more age later since provider := by
  intro governed
  obtain ⟨decision,mem,same,past,young⟩ := covered governed
  exact ⟨decision,sub mem,same,past.trans after,young⟩

def dated (ttl lag : Nat) : Facts where
  entry := Stamped lag
  build decisions now _ build := build.scope.now ≤ now ∧
    (build.principal.isSome → (build.serial,build.scope.now) ∈ decisions)
  making decisions now _ since scans :=
    since ≤ now ∧ ∀ provider ∈ scans, Covered decisions (ttl+lag) now since provider
  ready _ := True
  done decisions execution := ∀ provider ∈ execution.scans,
    Covered decisions (ttl+lag) execution.at_ execution.at_ provider
  entry_later sub after stamped := stamped.mono sub after
  build_later sub after held := ⟨held.1.trans after,fun governed => sub (held.2 governed)⟩
  making_later sub after held :=
    ⟨held.1.trans after,fun provider mem => (held.2 provider mem).later sub after⟩
  done_later sub held provider mem := (held provider mem).later sub le_rfl
  written _ _ _ _ _ each := each.insert ⟨rfl,le_rfl,nofun,nofun⟩
  begun _ _ _ := ⟨le_rfl,nofun⟩

section
variable (upholds : process.Upholds (dated ttl lag))
include upholds

lemma answers_dated (reachable : trouble.metastoreDown = false) (same : cfg.ttl = ttl) :
    process.Answers (dated ttl lag) cfg ref standing pins replicated trouble fun decisions provider =>
      (∀ entry ∈ process.entryFor ref replicated, entry.1.isSome →
        (entry.2.lakehouse → process.now ≤ entry.2.resolvedAt+ttl) ∧
        (entry.2.fingerprint.isSome ∨ ttl ≤ process.now-entry.2.resolvedAt)) →
      Covered decisions (ttl+lag) process.now process.now provider := by
  rintro catalog resolution decisions found effect decisions_
  have sub : process.decisions ⊆ decisions := by
    rw [decisions_]
    exact List.subset_append_right _ _
  have before := upholds.cached _ _ _ found ref.namespace_
  have each : (catalog.schema ref.namespace_).Each (Stamped lag decisions process.now) :=
    fun key entry there => (before key entry there).mono sub le_rfl
  have asked : (process.backend ref trouble).load ≠ .failed := by
    unfold backend
    rw [reachable]
    cases process.metastore ref <;> simp
  have new : ∀ serial, catalog.authorizer.isSome →
      resolution.decided = (catalog.schema ref.namespace_).decides serial →
      (serial,process.now) ∈ decisions := by
    intro serial governed same
    obtain ⟨principal,given⟩ := isSome_iff_exists.mp governed
    rw [decisions_,same]
    simp [SchemaProvider.decides,Catalog.schema,given]
  cases effect with
  | refused fault => exact ⟨each,by rintro _ ⟨⟩⟩
  | absent after bumps less =>
    refine ⟨?_,by rintro _ ⟨⟩⟩
    rcases less with rfl | rfl
    · exact each
    · exact each.remove _
  | hit cached allowed there use =>
    refine ⟨each,?_⟩
    rintro _ ⟨⟩ servable governed
    have old := before _ _ there
    rw [old.source] at governed
    have entry : (catalog.authorizer,cached) ∈ process.entryFor ref replicated := by
      have stored : catalog.schemas ref.namespace_
          ⟨ref.table,replicated,catalog.authorizer.getD ""⟩ = some cached := there
      unfold entryFor
      rw [found,mem_def,bind_some,stored]
      rfl
    obtain ⟨pinned,written⟩ := servable _ entry governed
    have young : cached.fingerprint.isSome ∧ process.now ≤ cached.resolvedAt+ttl := by
      rcases SchemaProvider.lakehouse_or_young use with lake | ⟨_,age⟩
      · exact ⟨old.printed lake,pinned lake⟩
      · rw [same] at age
        have elapsed : process.now-cached.resolvedAt < ttl := age
        exact ⟨written.resolve_right (Nat.not_le.mpr elapsed),by omega⟩
    obtain ⟨given,decided,past,recent⟩ := old.decided governed young.1
    exact ⟨_,sub decided,rfl,past.trans old.past,by have := young.2; omega⟩
  | kept cached decided allowed there use answered =>
    have old := before _ _ there
    have decided_ := fun governed => new cached.provider.serial governed (answered.resolve_left asked).2
    refine ⟨each.insert ⟨old.source,le_rfl,old.printed,fun governed _ =>
      ⟨_,decided_ governed,le_rfl,Nat.le_add_right _ _⟩⟩,?_⟩
    rintro _ ⟨⟩ _ governed
    rw [old.source] at governed
    exact ⟨_,decided_ governed,rfl,le_rfl,Nat.le_add_right _ _⟩
  | begun bumps metadata access allowed =>
    exact ⟨each,le_rfl,fun governed => new process.serial governed rfl⟩

lemma covered_of_current (current : provider.principal.isSome → process.Current ttl provider) :
    Covered process.decisions (ttl+lag) process.now process.now provider := by
  intro governed
  obtain ⟨replicated,⟨authorizer,cached⟩,there,governed,same,printed,young⟩ := current governed
  obtain ⟨catalog,found,stored⟩ := bind_eq_some_iff.mp there
  obtain ⟨entry,kept,equal⟩ := map_eq_some_iff.mp stored
  cases equal
  have stamped := upholds.cached _ _ _ found _ _ _ kept
  obtain ⟨given,decided,past,recent⟩ := stamped.decided governed printed
  exact ⟨_,decided,same,past.trans stamped.past,by dsimp only at young ⊢; omega⟩

end

lemma published_dated {build : Build} (prompt : process.now ≤ build.scope.now+lag)
    (begun : (dated ttl lag).build process.decisions process.now standing build)
    (makes : build.Makes process.now entry) :
    Stamped lag process.decisions process.now build.principal entry ∧ ∀ since ≤ process.now,
      Covered process.decisions (ttl+lag) process.now since entry.provider := by
  obtain ⟨past,decided⟩ := begun
  have stamp := makes.stamp
  constructor
  · refine ⟨makes.source,stamp.le,fun _ => makes.printed,fun governed _ => ⟨build.scope.now,?_,?_,?_⟩⟩
    · rw [makes.serial]
      exact decided governed
    · rw [stamp]
      exact past
    · rw [stamp]
      exact prompt
  · intro since early governed
    rw [makes.source] at governed
    exact ⟨_,decided governed,makes.serial.symm,past,by dsimp only; omega⟩

lemma allow_dated (upholds : process.Upholds (dated cfg.ttl lag)) (timely : process.Timely cfg planner lag event) :
    (dated cfg.ttl lag).Allow cfg planner process event where
  taken use taken _ provider mem :=
    covered_of_current upholds (timely.taken use taken provider mem)
  made := by
    rintro index ticket key owned since scans rfl running
    refine ⟨trivial,?_⟩
    have made := timely.made (since,scans)
    unfold makes at made
    simp only [running,mem_def,forall_const] at made
    rcases made with prompt | current
    · exact prompt ▸ (upholds.runs _ _ running).2
    · exact fun provider mem => covered_of_current upholds (current provider mem)
  touched := by
    rintro ref standing pins replicated trouble rfl
    exact (answers_dated upholds (timely.reachable trouble rfl).1 rfl).mono fun _ _ _ => trivial
  resolved := by
    rintro index ticket key owned since name todo scans trouble rfl running
    have servable := timely.resolved (⟨ticket.engine,name.1,name.2.1,name.2.2⟩,
      planner.isReplicated ticket.replicated name.2.2) (by
        unfold nextTable
        simp only [running,mem_def])
    refine (answers_dated upholds (timely.reachable trouble rfl).1 rfl).mono fun decisions provider told making => ?_
    refine ⟨making.1,List.forall_mem_append.mpr ⟨making.2,List.forall_mem_singleton.mpr fun governed => ?_⟩⟩
    obtain ⟨decision,there,mine,early,young⟩ := told servable governed
    exact ⟨decision,there,mine,early,making.1.trans young⟩
  published build mem standing entry begun makes := by
    obtain ⟨stamped,covered⟩ := published_dated (timely.prompt build mem) begun makes
    refine ⟨stamped,fun since scans making => ⟨making.1,?_⟩⟩
    exact List.forall_mem_append.mpr ⟨making.2,List.forall_mem_singleton.mpr (covered since making.1)⟩

namespace Sample

def glue : CatalogConfig where
  ttl := 60000
  hash := fun (_,_,_,_,access) => (access.bind (·.2.1)).elim "*" String.join

/-- The second build takes five milliseconds. -/
def revalidated : List WorkerEvent :=
  planned 0 ⟨true,"analyst"⟩ ++ [.setPolicy ⟨0,"glue","db","orders"⟩ ⟨some [],none,true⟩,.advance 100,
      .enter 1 (task ⟨true,"analyst"⟩) true,.look 1,.advance 60000,
      .enter 2 (task ⟨true,"analyst"⟩) false,.look 2,.resolve 2 {},.advance 5,.publish 2 true,.finish 2]

def revoked : List WorkerEvent :=
  planned 0 ⟨true,"analyst"⟩ ++ [.setPolicy ⟨0,"glue","db","orders"⟩ ⟨some [],none,true⟩,.advance 86400000,
      .enter 1 (task ⟨true,"analyst"⟩) true,.look 1]

def slowBuild : List WorkerEvent :=
  [.enter 0 (task ⟨true,"analyst"⟩) false,.look 0,.resolve 0 {},.advance 5,.publish 0 true,.finish 0,.advance 59998,
    .enter 1 (task ⟨true,"analyst"⟩) false,.look 1,.resolve 1 {},.finish 1]

end Sample
end WorkerProcess
end Oxidant.LakeFormation
