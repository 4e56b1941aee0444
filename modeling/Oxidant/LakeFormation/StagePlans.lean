import Oxidant.LakeFormation.Provider

/-! A worker process: stages planned through the plan cache that all of its engines share, tables
resolved for them through the catalog bridge's cache, and everything that moves in between: other
resolutions, policies, metadata, evictions and the clock. -/
namespace Oxidant.LakeFormation

inductive TableFormat where
  | parquet
  | csv
  | json
  | delta
  | iceberg
  deriving DecidableEq, Repr

def TableFormat.lakehouse : TableFormat → Bool
  | delta | iceberg => true
  | parquet | csv | json => false

abbrev SnapshotIdentity := String

structure TableMetadata where
  name : String
  location : String
  format : TableFormat
  schema : Option (List (String × String × Bool))
  partitionColumns : List String
  snapshot : SnapshotIdentity
  deriving DecidableEq, Repr

structure TableRef where
  engine : Nat
  catalog : String
  namespace_ : String
  table : String
  deriving DecidableEq, Repr

/-- A resolved table: what it was built from, and the principal of the catalog it came from. -/
structure ResolvedTable where
  serial : Nat
  ref : TableRef
  principal : Option String
  access : Option TableAccess
  snapshot : Option SnapshotIdentity
  deriving DecidableEq, Repr

structure TableCacheKey where
  name : String
  replicated : Bool
  principal : String
  deriving DecidableEq, Repr

structure CachedTable where
  provider : ResolvedTable
  snapshotKey : Option String
  snapshot : Option SnapshotIdentity
  resolvedAt : Nat
  fingerprint : Option String
  deriving DecidableEq, Repr

structure SchemaProvider where
  authorizer : Option String
  tables : TableCacheKey → Option CachedTable

structure Standing where
  required : Bool
  principal : String
  deriving DecidableEq, Repr

structure Scope where
  standing : Standing
  pins : Option (List (String × SnapshotIdentity))
  requirePins : Bool
  replicated : Bool
  now : Nat

inductive LoadAnswer where
  | loaded (metadata : TableMetadata)
  | missing
  | failed
  deriving DecidableEq, Repr

structure Backend where
  load : LoadAnswer
  access : Option TableAccess

inductive TableError where
  | noAuthorizer (table : String)
  | principalMismatch (table expected actual : String)
  | outsidePinnedScope (key : String)
  | omittedPin (key : String)
  | metastore
  | authorizer
  | unbuildable
  deriving DecidableEq, Repr

structure CatalogConfig where
  ttl : Nat
  hash : String × TableFormat × Option (List (String × String × Bool)) × List String ×
    Option (Bool × Option (List String) × Option String) → String

def CatalogConfig.metadataFingerprint (cfg : CatalogConfig) (md : TableMetadata) (access : Option TableAccess) :
    String :=
  cfg.hash (md.location,md.format,md.schema,md.partitionColumns,
    access.map fun access => (access.enforced,access.authorizedColumns,access.rowFilter))

namespace SchemaProvider

def principal (provider : SchemaProvider) : String := provider.authorizer.getD ""

def checkRequired (provider : SchemaProvider) (standing : Standing) (table : String) : Except TableError Unit :=
  if standing.required then
    match provider.authorizer with
    | none => .error (.noAuthorizer table)
    | some actual =>
      if standing.principal ≠ "" && actual ≠ standing.principal then
        .error (.principalMismatch table standing.principal actual)
      else .ok ()
  else .ok ()

inductive CacheUse where
  | hit
  | reload
  | revalidate
  deriving DecidableEq, Repr

def requestedPin (scope : Scope) (key : String) : Option SnapshotIdentity :=
  scope.pins.bind fun pins => pins.lookup key

/-- A lakehouse entry is told by its snapshot and has no time to live. -/
def cacheUse (cfg : CatalogConfig) (scope : Scope) (cached : CachedTable) : Except TableError CacheUse :=
  match cached.snapshotKey,cached.snapshot with
  | some key,some snapshot =>
    if scope.requirePins && scope.pins.isNone then .error (.outsidePinnedScope key)
    else match requestedPin scope key with
      | some requested => .ok (if requested ≠ snapshot then .reload else .hit)
      | none => if scope.requirePins then .error (.omittedPin key) else .ok .hit
  | _,_ => .ok (if cfg.ttl ≠ 0 && scope.now - cached.resolvedAt < cfg.ttl then .hit else .revalidate)

def resolveAccess (provider : SchemaProvider) (backend : Backend) : Except TableError (Option TableAccess) :=
  match provider.authorizer with
  | none => .ok none
  | some _ => match backend.access with
    | some access => .ok (some access)
    | none => .error .authorizer

def resolveSnapshot (scope : Scope) (md : TableMetadata) :
    Except TableError (Option String × Option SnapshotIdentity) :=
  if md.format.lakehouse then
    if scope.requirePins && scope.pins.isNone then .error (.outsidePinnedScope md.name)
    else match requestedPin scope md.name with
      | some pin => .ok (some md.name,some pin)
      | none =>
        if scope.requirePins then .error (.omittedPin md.name)
        else .ok (some md.name,some md.snapshot)
  else .ok (none,none)

def insert (provider : SchemaProvider) (key : TableCacheKey) (cached : CachedTable) : SchemaProvider :=
  {provider with tables := Function.update provider.tables key (some cached)}

def remove (provider : SchemaProvider) (key : TableCacheKey) : SchemaProvider :=
  {provider with tables := Function.update provider.tables key none}

end SchemaProvider

/-- What a resolution comes to at once: an answer, or a provider yet to be built under a decision. -/
inductive Outcome where
  | answered (answer : Except TableError (Option ResolvedTable))
  | building (bumps : Bool) (metadata : TableMetadata) (access : Option TableAccess)

/-- The outcome, the tables after it, whether the catalog version moves, and the serial an access
decision was made for. -/
structure Resolution where
  outcome : Outcome
  after : SchemaProvider
  bumps : Bool := false
  decided : Option Nat := none

/-- A provider under construction: the catalog it is for, what was asked and when, and what it is built
from. -/
structure Build where
  catalog : Nat
  principal : Option String
  ref : TableRef
  scope : Scope
  serial : Nat
  metadata : TableMetadata
  access : Option TableAccess
  bumps : Bool

/-- The entry is stamped with the time at which it is ready. -/
def Build.finish (cfg : CatalogConfig) (build : Build) (now : Nat) : Except TableError CachedTable := do
  let (snapshotKey,snapshot) ← SchemaProvider.resolveSnapshot build.scope build.metadata
  return {
    provider := {serial := build.serial,ref := build.ref,principal := build.principal,access := build.access,snapshot}
    snapshotKey
    snapshot
    resolvedAt := now
    fingerprint := some (cfg.metadataFingerprint build.metadata build.access)}

namespace SchemaProvider
variable (cfg : CatalogConfig) (provider : SchemaProvider) (scope : Scope) (ref : TableRef)
  (serial : Nat) (backend : Backend)

def cacheKey : TableCacheKey := ⟨ref.table,scope.replicated,provider.principal⟩

def refused (fault : TableError) : Resolution := {outcome := .answered (.error fault),after := provider}

/-- The decision is for the provider only where the catalog has an authorizer. -/
def decides (serial : Nat) : Option Nat := provider.authorizer.map fun _ => serial

/-- The decision is made; the provider comes later. -/
def begin (bumps : Bool) (md : TableMetadata) (access : Option TableAccess) : Resolution :=
  {outcome := .building bumps md access,after := provider,decided := provider.decides serial}

/-- Past its time to live an entry is compared with what it would be built from now. -/
def revalidateEntry (cached : CachedTable) : Resolution :=
  match backend.load with
  | .missing => {
      outcome := .answered (.ok none)
      after := provider.remove (provider.cacheKey scope ref)
      bumps := true}
  | .failed => {
      outcome := .answered (.ok (some cached.provider))
      after := provider.insert (provider.cacheKey scope ref) {cached with resolvedAt := scope.now}}
  | .loaded md => match provider.resolveAccess backend with
    | .error fault => provider.refused fault
    | .ok access =>
      if some (cfg.metadataFingerprint md access) = cached.fingerprint then {
        outcome := .answered (.ok (some cached.provider))
        after := provider.insert (provider.cacheKey scope ref) {cached with resolvedAt := scope.now}
        decided := provider.decides cached.provider.serial}
      else provider.begin serial true md access

def loadTable : Resolution :=
  match backend.load with
  | .missing => {outcome := .answered (.ok none),after := provider}
  | .failed => provider.refused .metastore
  | .loaded md => match provider.resolveAccess backend with
    | .error fault => provider.refused fault
    | .ok access => provider.begin serial false md access

def table : Resolution :=
  match provider.checkRequired scope.standing ref.table with
  | .error fault => provider.refused fault
  | .ok _ => match provider.tables (provider.cacheKey scope ref) with
    | none => provider.loadTable serial backend
    | some cached => match cacheUse cfg scope cached with
      | .error fault => provider.refused fault
      | .ok .hit => {outcome := .answered (.ok (some cached.provider)),after := provider}
      | .ok .reload => provider.loadTable serial backend
      | .ok .revalidate => provider.revalidateEntry cfg scope ref serial backend cached

/-- A table a statement has just written is put into the cache without a decision. -/
def registerTable : SchemaProvider :=
  provider.insert (provider.cacheKey scope ref) {
    provider := {serial,ref,principal := provider.authorizer,access := none,snapshot := none}
    snapshotKey := none
    snapshot := none
    resolvedAt := scope.now
    fingerprint := none}

def caches (name : String) : Bool :=
  [false,true].any fun replicated => (provider.tables ⟨name,replicated,provider.principal⟩).isSome

def evictTable (name : String) : SchemaProvider :=
  {provider with tables := fun key => if key.name = name then none else provider.tables key}

end SchemaProvider

structure StageTicket where
  engine : Nat
  stageId : Nat
  sql : String
  pins : List (String × SnapshotIdentity)
  replicated : List String
  inputSchemas : List String
  standing : Standing
  deriving DecidableEq, Repr

structure StagePlanKey where
  engine : Nat
  catalogVersion : Nat
  stageId : Nat
  sql : String
  pins : List (String × SnapshotIdentity)
  replicated : List String
  inputSchemas : List String
  deriving DecidableEq, Repr

structure StagePlan where
  scans : List ResolvedTable
  builder : Standing
  deriving DecidableEq, Repr

inductive CacheEntry where
  | ready (plan : StagePlan)
  | building
  deriving DecidableEq, Repr

/-- The least recently used key comes first; only ready entries are listed. -/
structure StagePlanCache where
  entries : StagePlanKey → Option CacheEntry
  lru : List StagePlanKey
  cap : Nat

inductive PlanLookup where
  | hit (plan : StagePlan)
  | build
  | wait
  deriving DecidableEq, Repr

namespace StagePlanCache

def enabled (cache : StagePlanCache) : Bool := cache.cap > 0

def lookup (cache : StagePlanCache) (key : StagePlanKey) : Option PlanLookup × StagePlanCache :=
  if cache.enabled then
    match cache.entries key with
    | some (.ready plan) => (some (.hit plan),{cache with lru := cache.lru.erase key ++ [key]})
    | some .building => (some .wait,cache)
    | none => (some .build,{cache with entries := Function.update cache.entries key (some .building)})
  else (none,cache)

def remove (cache : StagePlanCache) (key : StagePlanKey) : StagePlanCache :=
  {cache with entries := Function.update cache.entries key none}

def evict (cache : StagePlanCache) : StagePlanCache :=
  let gone := cache.lru.take (cache.lru.length+1-cache.cap)
  {cache with
    entries := fun key => if key ∈ gone then none else cache.entries key
    lru := cache.lru.drop (cache.lru.length+1-cache.cap)}

def completeBuild (cache : StagePlanCache) (key : StagePlanKey) (plan : Option StagePlan) : StagePlanCache :=
  match plan with
  | none => cache.remove key
  | some plan =>
    if cache.enabled then
      {cache.evict with
        entries := Function.update cache.evict.entries key (some (.ready plan))
        lru := cache.evict.lru ++ [key]}
    else cache.remove key

end StagePlanCache

structure Catalog where
  id : Nat
  authorizer : Option String
  schemas : String → TableCacheKey → Option CachedTable

def Catalog.schema (catalog : Catalog) (name : String) : SchemaProvider :=
  ⟨catalog.authorizer,catalog.schemas name⟩

def Catalog.setSchema (catalog : Catalog) (name : String) (provider : SchemaProvider) : Catalog :=
  {catalog with schemas := Function.update catalog.schemas name provider.tables}

structure Engine where
  catalogs : String → Option Catalog
  catalogVersion : Nat
  requirePins : Bool

/-- Which catalog tables a stage's text names, in order, and which of them are read whole. -/
structure Planner where
  tablesOf : String → List (String × String × String)
  isReplicated : List String → String → Bool

/-- A stage is looked up in the plan cache; if it must be planned, its tables are resolved, from
`since` on, and while a provider is built for one of them the stage waits for it. -/
inductive Phase where
  | looking
  | planning (owned : Option StagePlanKey) (since : Nat) (todo : List (String × String × String))
      (scans : List ResolvedTable)
  | building (owned : Option StagePlanKey) (since : Nat) (todo : List (String × String × String))
      (scans : List ResolvedTable) (build : Build)

/-- One planning of a stage's text. Without a key it goes past the plan cache, as a failed stage's
fallback does. -/
structure StageRun where
  ticket : StageTicket
  key : Option StagePlanKey
  phase : Phase

structure Execution where
  standing : Standing
  at_ : Nat
  scans : List ResolvedTable
  deriving DecidableEq, Repr

structure WorkerProcess where
  engines : Nat → Engine
  cache : StagePlanCache
  runs : Nat → Option StageRun
  touched : List Build := []
  metastore : TableRef → Option TableMetadata
  policy : TableRef → TableAccess
  now : Nat := 0
  serial : Nat := 0
  decisions : List (Nat × Nat) := []
  executed : List Execution := []

structure Trouble where
  metastoreDown : Bool := false
  authorizerDown : Bool := false
  deriving DecidableEq, Repr

inductive WorkerEvent where
  | enter (run : Nat) (ticket : StageTicket) (cached : Bool)
  | look (run : Nat)
  | resolve (run : Nat) (trouble : Trouble)
  | publish (run : Nat) (builds : Bool)
  | finish (run : Nat)
  | touch (ref : TableRef) (standing : Standing) (pins : Option (List (String × SnapshotIdentity)))
      (replicated : Bool) (trouble : Trouble)
  | publishTouched (place : Nat) (builds : Bool)
  | ctas (ref : TableRef) (replicated : Bool) (metadata : TableMetadata)
  | refresh (ref : TableRef)
  | registerCatalog (engine : Nat) (name : String) (authorizer : Option String)
  | setMetadata (ref : TableRef) (metadata : Option TableMetadata)
  | setPolicy (ref : TableRef) (access : TableAccess)
  | setCap (cap : Nat)
  | advance (span : Nat)

namespace WorkerProcess
variable (cfg : CatalogConfig) (planner : Planner)

def catalog (process : WorkerProcess) (ref : TableRef) : Option Catalog :=
  (process.engines ref.engine).catalogs ref.catalog

def setCatalog (process : WorkerProcess) (ref : TableRef) (catalog : Catalog) : WorkerProcess :=
  let engine := process.engines ref.engine
  {process with
    engines := Function.update process.engines ref.engine
      {engine with catalogs := Function.update engine.catalogs ref.catalog (some catalog)}}

def bump (process : WorkerProcess) (index : Nat) : WorkerProcess :=
  let engine := process.engines index
  {process with
    engines := Function.update process.engines index {engine with catalogVersion := engine.catalogVersion+1}}

def backend (process : WorkerProcess) (ref : TableRef) (trouble : Trouble) : Backend where
  load :=
    if trouble.metastoreDown then .failed
    else match process.metastore ref with
      | some metadata => .loaded metadata
      | none => .missing
  access := if trouble.authorizerDown then none else some (process.policy ref)

def scope (process : WorkerProcess) (ref : TableRef) (standing : Standing)
    (pins : Option (List (String × SnapshotIdentity))) (replicated : Bool) : Scope where
  standing := standing
  pins := pins
  requirePins := (process.engines ref.engine).requirePins
  replicated := replicated
  now := process.now

def resolveTable (process : WorkerProcess) (ref : TableRef) (standing : Standing)
    (pins : Option (List (String × SnapshotIdentity))) (replicated : Bool) (trouble : Trouble) :
    (Except TableError (Option ResolvedTable) ⊕ Build) × WorkerProcess :=
  match process.catalog ref with
  | none => (.inl (.ok none),process)
  | some catalog =>
    let scope := process.scope ref standing pins replicated
    let out := (catalog.schema ref.namespace_).table cfg scope ref process.serial (process.backend ref trouble)
    let after := process.setCatalog ref (catalog.setSchema ref.namespace_ out.after)
    let counted := {after with
      serial := process.serial+1
      decisions := (out.decided.map fun serial => (serial,process.now)).toList ++ process.decisions}
    let told := match out.outcome with
      | .answered answer => .inl answer
      | .building bumps metadata access =>
        .inr ⟨catalog.id,catalog.authorizer,ref,scope,process.serial,metadata,access,bumps⟩
    (told,if out.bumps then counted.bump ref.engine else counted)

/-- A finished provider goes into the tables of the catalog it was asked of, if that is still there. -/
def publishTable (process : WorkerProcess) (build : Build) (builds : Bool) :
    Except TableError (Option ResolvedTable) × WorkerProcess :=
  match if builds then build.finish cfg process.now else .error .unbuildable with
  | .error fault => (.error fault,process)
  | .ok entry =>
    let after := match process.catalog build.ref with
      | none => process
      | some catalog =>
        if catalog.id = build.catalog ∧ catalog.authorizer = build.principal then
          let tables := catalog.schema build.ref.namespace_
          process.setCatalog build.ref (catalog.setSchema build.ref.namespace_
            (tables.insert (tables.cacheKey build.scope build.ref) entry))
        else process
    (.ok (some entry.provider),if build.bumps then after.bump build.ref.engine else after)

def setRun (process : WorkerProcess) (index : Nat) (run : Option StageRun) : WorkerProcess :=
  {process with runs := Function.update process.runs index run}

def planRequest (process : WorkerProcess) (ticket : StageTicket) : StagePlanKey where
  engine := ticket.engine
  catalogVersion := (process.engines ticket.engine).catalogVersion
  stageId := ticket.stageId
  sql := ticket.sql
  pins := ticket.pins
  replicated := ticket.replicated.insertionSort (· ≤ ·)
  inputSchemas := ticket.inputSchemas

def execute (process : WorkerProcess) (standing : Standing) (scans : List ResolvedTable) : WorkerProcess :=
  {process with executed := ⟨standing,process.now,scans⟩::process.executed}

def look (process : WorkerProcess) (index : Nat) (run : StageRun) : WorkerProcess :=
  let found := run.key.elim (none,process.cache) process.cache.lookup
  let after := {process with cache := found.2}
  let planning := fun owned =>
    after.setRun index (some {run with
      phase := .planning owned process.now (planner.tablesOf run.ticket.sql) []})
  match found.1 with
  | none => planning none
  | some .build => planning run.key
  | some .wait => after
  | some (.hit plan) => (after.setRun index none).execute run.ticket.standing plan.scans

def takes (process : WorkerProcess) : WorkerEvent → Option (Standing × StagePlan)
  | .look index => match process.runs index with
    | some ⟨ticket,some key,.looking⟩ => match (process.cache.lookup key).1 with
      | some (.hit plan) => some (ticket.standing,plan)
      | _ => none
    | _ => none
  | _ => none

def abandon (process : WorkerProcess) (index : Nat) (owned : Option StagePlanKey) : WorkerProcess :=
  let after := process.setRun index none
  {after with cache := owned.elim after.cache fun key => after.cache.completeBuild key none}

/-- A stage goes on with the provider it was told of, or ends without a plan. -/
def goOn (process : WorkerProcess) (index : Nat) (run : StageRun) (owned : Option StagePlanKey) (since : Nat)
    (todo : List (String × String × String)) (scans : List ResolvedTable) :
    Except TableError (Option ResolvedTable) → WorkerProcess
  | .ok (some provider) =>
    process.setRun index (some {run with phase := .planning owned since todo (scans ++ [provider])})
  | _ => process.abandon index owned

def resolveNext (process : WorkerProcess) (index : Nat) (run : StageRun) (trouble : Trouble)
    (owned : Option StagePlanKey) (since : Nat) (scans : List ResolvedTable)
    (name : String × String × String) (todo : List (String × String × String)) : WorkerProcess :=
  let ref : TableRef := ⟨run.ticket.engine,name.1,name.2.1,name.2.2⟩
  let out := process.resolveTable cfg ref run.ticket.standing (some run.ticket.pins)
    (planner.isReplicated run.ticket.replicated ref.table) trouble
  match out.1 with
  | .inl answer => out.2.goOn index run owned since todo scans answer
  | .inr build => out.2.setRun index (some {run with phase := .building owned since todo scans build})

def finish (process : WorkerProcess) (index : Nat) (standing : Standing)
    (owned : Option StagePlanKey) (scans : List ResolvedTable) : WorkerProcess :=
  let after := (process.setRun index none).execute standing scans
  {after with cache := owned.elim after.cache fun key => after.cache.completeBuild key (some ⟨scans,standing⟩)}

def step (process : WorkerProcess) : WorkerEvent → WorkerProcess
  | .enter index ticket cached => match process.runs index with
    | some _ => process
    | none =>
      let key := if cached then some (process.planRequest ticket) else none
      process.setRun index (some ⟨ticket,key,.looking⟩)
  | .look index => match process.runs index with
    | some ⟨ticket,key,.looking⟩ => process.look planner index ⟨ticket,key,.looking⟩
    | _ => process
  | .resolve index trouble => match process.runs index with
    | some ⟨ticket,key,.planning owned since (name::todo) scans⟩ =>
      process.resolveNext cfg planner index ⟨ticket,key,.planning owned since (name::todo) scans⟩
        trouble owned since scans name todo
    | _ => process
  | .publish index builds => match process.runs index with
    | some ⟨ticket,key,.building owned since todo scans build⟩ =>
      let out := process.publishTable cfg build builds
      out.2.goOn index ⟨ticket,key,.building owned since todo scans build⟩ owned since todo scans out.1
    | _ => process
  | .finish index => match process.runs index with
    | some ⟨ticket,_,.planning owned _ [] scans⟩ => process.finish index ticket.standing owned scans
    | _ => process
  | .touch ref standing pins replicated trouble =>
    let out := process.resolveTable cfg ref standing pins replicated trouble
    match out.1 with
    | .inl _ => out.2
    | .inr build => {out.2 with touched := out.2.touched ++ [build]}
  | .publishTouched place builds => match process.touched[place]? with
    | none => process
    | some build =>
      let out := process.publishTable cfg build builds
      {out.2 with touched := out.2.touched.eraseIdx place}
  | .ctas ref replicated metadata => match process.catalog ref with
    | none => process
    | some catalog =>
      let scope := process.scope ref ⟨false,""⟩ none replicated
      let tables := (catalog.schema ref.namespace_).registerTable scope ref process.serial
      let after := (process.setCatalog ref (catalog.setSchema ref.namespace_ tables)).bump ref.engine
      {after with
        serial := process.serial+1
        metastore := Function.update process.metastore ref (some metadata)}
  | .refresh ref => match process.catalog ref with
    | none => process
    | some catalog =>
      let tables := catalog.schema ref.namespace_
      let after := process.setCatalog ref (catalog.setSchema ref.namespace_ (tables.evictTable ref.table))
      if tables.caches ref.table then after.bump ref.engine else after
  | .registerCatalog index name authorizer =>
    let after := (process.setCatalog ⟨index,name,"",""⟩ ⟨process.serial,authorizer,fun _ _ => none⟩).bump index
    {after with serial := process.serial+1}
  | .setMetadata ref metadata => {process with metastore := Function.update process.metastore ref metadata}
  | .setPolicy ref access => {process with policy := Function.update process.policy ref access}
  | .setCap cap => {process with cache := {process.cache with cap := cap}}
  | .advance span => {process with now := process.now+span}

end WorkerProcess

namespace SchemaProvider
variable {provider : SchemaProvider} {scope : Scope} {ref : TableRef}

inductive Effect (cfg : CatalogConfig) (provider : SchemaProvider) (scope : Scope) (ref : TableRef)
    (serial : Nat) (backend : Backend) : Resolution → Prop where
  | refused (fault : TableError) : Effect cfg provider scope ref serial backend
      (provider.refused fault)
  | absent (after : SchemaProvider) (bumps : Bool)
      (less : after = provider ∨ after = provider.remove (provider.cacheKey scope ref)) :
      Effect cfg provider scope ref serial backend {outcome := .answered (.ok none),after,bumps}
  | hit (cached : CachedTable)
      (allowed : provider.checkRequired scope.standing ref.table = .ok ())
      (found : provider.tables (provider.cacheKey scope ref) = some cached)
      (use : cacheUse cfg scope cached = .ok .hit) :
      Effect cfg provider scope ref serial backend
        {outcome := .answered (.ok (some cached.provider)),after := provider}
  | kept (cached : CachedTable) (decided : Option Nat)
      (allowed : provider.checkRequired scope.standing ref.table = .ok ())
      (found : provider.tables (provider.cacheKey scope ref) = some cached)
      (use : cacheUse cfg scope cached = .ok .revalidate)
      (asked : backend.load = .failed ∨ cached.fingerprint.isSome ∧
        decided = provider.decides cached.provider.serial) :
      Effect cfg provider scope ref serial backend {
        outcome := .answered (.ok (some cached.provider))
        after := provider.insert (provider.cacheKey scope ref)
          {cached with resolvedAt := scope.now}
        decided}
  | begun (bumps : Bool) (metadata : TableMetadata) (access : Option TableAccess)
      (allowed : provider.checkRequired scope.standing ref.table = .ok ()) :
      Effect cfg provider scope ref serial backend (provider.begin serial bumps metadata access)

section
variable (allowed : provider.checkRequired scope.standing ref.table = .ok ())
include allowed

lemma effect_loadTable : Effect cfg provider scope ref serial backend (provider.loadTable serial backend) := by
  unfold loadTable
  cases backend.load with
  | missing => exact .absent provider false (.inl rfl)
  | failed => exact .refused _
  | loaded md =>
    cases provider.resolveAccess backend with
    | error fault => exact .refused fault
    | ok access => exact .begun _ _ _ allowed

lemma effect_revalidateEntry (found : provider.tables (provider.cacheKey scope ref) = some cached)
    (use : cacheUse cfg scope cached = .ok .revalidate) :
    Effect cfg provider scope ref serial backend (provider.revalidateEntry cfg scope ref serial backend cached) := by
  unfold revalidateEntry
  cases loaded : backend.load with
  | missing => exact .absent _ true (.inr rfl)
  | failed => exact .kept cached none allowed found use (.inl loaded)
  | loaded md =>
    cases provider.resolveAccess backend with
    | error fault => exact .refused fault
    | ok access =>
      simp only
      split
      · next same => exact .kept cached _ allowed found use (.inr ⟨by simp [← same],rfl⟩)
      · exact .begun _ _ _ allowed

end

lemma effect_table :
    Effect cfg provider scope ref serial backend (provider.table cfg scope ref serial backend) := by
  unfold table
  cases allowed : provider.checkRequired scope.standing ref.table with
  | error fault => exact .refused fault
  | ok _ =>
    cases found : provider.tables (provider.cacheKey scope ref) with
    | none => exact effect_loadTable allowed
    | some cached =>
      simp only
      cases use : cacheUse cfg scope cached with
      | error fault => exact .refused fault
      | ok use_ =>
        cases use_ with
        | hit => exact .hit cached allowed found use
        | reload => exact effect_loadTable allowed
        | revalidate => exact effect_revalidateEntry allowed found use

end SchemaProvider

namespace SchemaProvider
variable {provider : SchemaProvider}

def Each (good : Option String → CachedTable → Prop) (provider : SchemaProvider) : Prop :=
  ∀ key entry, provider.tables key = some entry → good provider.authorizer entry

lemma Each.insert (each : provider.Each good) (fine : good provider.authorizer entry) :
    (provider.insert key entry).Each good := by
  intro other found there
  unfold SchemaProvider.insert at there
  simp only [Function.update_apply] at there
  split at there
  · cases there
    exact fine
  · exact each other found there

lemma Each.remove (each : provider.Each good) (key) : (provider.remove key).Each good := by
  intro other found there
  unfold SchemaProvider.remove at there
  simp only [Function.update_apply] at there
  split at there
  · cases there
  · exact each other found there

lemma Each.evictTable (each : provider.Each good) (name) : (provider.evictTable name).Each good := by
  intro other found there
  unfold SchemaProvider.evictTable at there
  simp only at there
  split at there
  · cases there
  · exact each other found there

lemma Effect.authorizer (effect : Effect cfg provider scope ref serial backend out) :
    out.after.authorizer = provider.authorizer := by
  cases effect with
  | refused fault => rfl
  | absent after bumps less => rcases less with rfl | rfl <;> rfl
  | hit cached allowed found use => rfl
  | kept cached decided allowed found use asked => rfl
  | begun bumps metadata access allowed => rfl

end SchemaProvider

namespace StagePlanCache
variable {cache : StagePlanCache}

lemma ready_of_lookup (there : (cache.lookup key).2.entries other = some (.ready plan)) :
    cache.entries other = some (.ready plan) := by
  unfold lookup at there
  split at there
  · split at there
    · exact there
    · exact there
    · simp only [Function.update_apply] at there
      split at there
      · cases there
      · exact there
  · exact there

lemma ready_of_remove (there : (cache.remove key).entries other = some (.ready plan)) :
    cache.entries other = some (.ready plan) := by
  unfold remove at there
  simp only [Function.update_apply] at there
  split at there
  · cases there
  · exact there

lemma ready_of_completeBuild (there : (cache.completeBuild key made).entries other = some (.ready plan)) :
    cache.entries other = some (.ready plan) ∨ made = some plan := by
  unfold completeBuild at there
  split at there
  · exact .inl (ready_of_remove there)
  · split at there
    · simp only [Function.update_apply] at there
      split at there
      · cases there
        exact .inr rfl
      · unfold evict at there
        simp only at there
        split at there
        · cases there
        · exact .inl there
    · exact .inl (ready_of_remove there)

lemma entries_of_hit (found : (cache.lookup key).1 = some (.hit plan)) :
    cache.entries key = some (.ready plan) := by
  unfold lookup at found
  split at found
  · split at found
    · next there =>
      cases found
      exact there
    · cases found
    · cases found
  · cases found

end StagePlanCache

/-- What a finished build puts into the tables. -/
structure Build.Makes (build : Build) (now : Nat) (entry : CachedTable) : Prop where
  source : entry.provider.principal = build.principal
  stamp : entry.resolvedAt = now
  serial : entry.provider.serial = build.serial
  printed : entry.fingerprint.isSome

lemma Build.finish_makes (done : Build.finish cfg build now = .ok entry) : build.Makes now entry := by
  unfold finish at done
  cases at_ : SchemaProvider.resolveSnapshot build.scope build.metadata with
  | error fault => simp [at_,bind,Except.bind] at done
  | ok snapshot =>
    simp only [at_,bind,Except.bind] at done
    cases done
    exact ⟨rfl,rfl,rfl,rfl⟩

namespace WorkerProcess
variable {process : WorkerProcess}

def Cached (good : Option String → CachedTable → Prop) (process : WorkerProcess) : Prop :=
  ∀ engine name catalog, (process.engines engine).catalogs name = some catalog →
    ∀ space, (catalog.schema space).Each good

section
variable (cached : process.Cached good)
include cached

lemma Cached.setCatalog {ref : TableRef} {catalog : Catalog} (fine : ∀ space, (catalog.schema space).Each good) :
    (process.setCatalog ref catalog).Cached good := by
  intro engine name other found
  unfold WorkerProcess.setCatalog at found
  simp only [Function.update_apply] at found
  split at found
  · next same =>
    simp only [Function.update_apply] at found
    split at found
    · cases found
      exact fine
    · exact cached _ name other found
  · exact cached engine name other found

lemma Cached.bump (index) : (process.bump index).Cached good := by
  intro engine name other found
  unfold WorkerProcess.bump at found
  simp only [Function.update_apply] at found
  split at found
  · next same => exact cached _ name other found
  · exact cached engine name other found

lemma Cached.setSchema {ref : TableRef} {catalog : Catalog}
    (found : process.catalog ref = some catalog) {space : String} {provider : SchemaProvider}
    (same : provider.authorizer = catalog.authorizer) (fine : provider.Each good) :
    (process.setCatalog ref (catalog.setSchema space provider)).Cached good := by
  apply cached.setCatalog
  intro other key entry there
  unfold Catalog.setSchema Catalog.schema at there
  simp only [Function.update_apply] at there
  split at there
  · have held := fine key entry there
    rwa [same] at held
  · exact cached _ _ _ found other key entry there

lemma Cached.congr {after : WorkerProcess} (same : after.engines = process.engines) : after.Cached good := by
  intro engine name catalog found
  rw [same] at found
  exact cached engine name catalog found

end

lemma takes_look (running : process.runs index = some ⟨ticket,some key,.looking⟩)
    (found : (process.cache.lookup key).1 = some (.hit plan)) :
    (ticket.standing,plan) ∈ process.takes (.look index) := by
  unfold takes
  simp only [running,found,Option.mem_def]

structure Apart (process after : WorkerProcess) : Prop where
  cache : after.cache = process.cache
  runs : after.runs = process.runs
  touched : after.touched = process.touched
  now : after.now = process.now
  executed : after.executed = process.executed

lemma resolveTable_spec :
    let out := process.resolveTable cfg ref standing pins replicated trouble
    Apart process out.2 ∧ (out = (.inl (.ok none),process) ∨
      ∃ catalog resolution, process.catalog ref = some catalog ∧
        (catalog.schema ref.namespace_).Effect cfg (process.scope ref standing pins replicated) ref process.serial
          (process.backend ref trouble) resolution ∧
        (out.1 = match resolution.outcome with
          | .answered answer => .inl answer
          | .building bumps metadata access => .inr ⟨catalog.id,catalog.authorizer,ref,
              process.scope ref standing pins replicated,process.serial,metadata,access,bumps⟩) ∧
        out.2.decisions = (resolution.decided.map fun serial => (serial,process.now)).toList ++ process.decisions ∧
        (out.2.engines = (process.setCatalog ref (catalog.setSchema ref.namespace_ resolution.after)).engines ∨
          out.2.engines = ((process.setCatalog ref
            (catalog.setSchema ref.namespace_ resolution.after)).bump ref.engine).engines)) := by
  unfold resolveTable
  cases found : process.catalog ref with
  | none => exact ⟨⟨rfl,rfl,rfl,rfl,rfl⟩,.inl rfl⟩
  | some catalog =>
    simp only
    refine ⟨?_,.inr ⟨catalog,_,rfl,SchemaProvider.effect_table,rfl,?_,?_⟩⟩
    · split <;> exact ⟨rfl,rfl,rfl,rfl,rfl⟩
    · split <;> rfl
    · split
      · exact .inr rfl
      · exact .inl rfl

lemma Cached.resolved (cached : process.Cached good) {ref : TableRef} {catalog : Catalog}
    (found : process.catalog ref = some catalog) {after : SchemaProvider} {next : WorkerProcess}
    (same : after.authorizer = catalog.authorizer) (fine : after.Each good)
    (engines : next.engines = (process.setCatalog ref (catalog.setSchema ref.namespace_ after)).engines ∨
      next.engines = ((process.setCatalog ref (catalog.setSchema ref.namespace_ after)).bump ref.engine).engines) :
    next.Cached good := by
  have set := @Cached.setSchema _ _ cached ref catalog found ref.namespace_ after same fine
  rcases engines with plain | bumped
  · exact set.congr plain
  · exact (set.bump ref.engine).congr bumped

lemma publishTable_spec :
    let out := process.publishTable cfg build builds
    Apart process out.2 ∧ out.2.decisions = process.decisions ∧
      ((∃ fault, out = (.error fault,process)) ∨ ∃ entry, build.Makes process.now entry ∧
        out.1 = .ok (some entry.provider) ∧
        ∀ good, process.Cached good → good build.principal entry → out.2.Cached good) := by
  unfold publishTable
  split
  · next fault _ => exact ⟨⟨rfl,rfl,rfl,rfl,rfl⟩,rfl,.inl ⟨fault,rfl⟩⟩
  · next entry made =>
    have makes : build.Makes process.now entry := by
      split at made
      · exact Build.finish_makes made
      · cases made
    simp only
    refine ⟨?_,?_,.inr ⟨entry,makes,rfl,fun good cached fine => ?_⟩⟩
    · split <;> split <;> try split
      all_goals exact ⟨rfl,rfl,rfl,rfl,rfl⟩
    · split <;> split <;> try split
      all_goals rfl
    · suffices inserted : Cached good (match process.catalog build.ref with
          | none => process
          | some catalog => if catalog.id = build.catalog ∧ catalog.authorizer = build.principal then
              process.setCatalog build.ref (catalog.setSchema build.ref.namespace_
                ((catalog.schema build.ref.namespace_).insert
                  ((catalog.schema build.ref.namespace_).cacheKey build.scope build.ref) entry))
            else process) by
        split
        · exact inserted.bump _
        · exact inserted
      split
      · exact cached
      · next catalog found =>
        split
        · next same =>
          have fine : good catalog.authorizer entry := same.2 ▸ fine
          exact cached.setSchema found rfl (SchemaProvider.Each.insert (cached _ _ _ found _) fine)
        · exact cached

lemma Cached.mono (cached : process.Cached good)
    (weaker : ∀ authorizer entry, good authorizer entry → better authorizer entry) :
    process.Cached better :=
  fun engine name catalog found space key entry there =>
    weaker _ _ (cached engine name catalog found space key entry there)

/-- What the decisions until a time say of cached tables, of a provider and of a plan in the making, of
a cached and of an executed plan. -/
structure Facts where
  entry : List (Nat × Nat) → Nat → Option String → CachedTable → Prop
  build : List (Nat × Nat) → Nat → Standing → Build → Prop
  making : List (Nat × Nat) → Nat → Standing → Nat → List ResolvedTable → Prop
  ready : StagePlan → Prop
  done : List (Nat × Nat) → Execution → Prop
  entry_later : ∀ {decisions more now later authorizer cached}, decisions ⊆ more → now ≤ later →
    entry decisions now authorizer cached → entry more later authorizer cached
  build_later : ∀ {decisions more now later standing begun}, decisions ⊆ more → now ≤ later →
    build decisions now standing begun → build more later standing begun
  making_later : ∀ {decisions more now later standing since scans}, decisions ⊆ more →
    now ≤ later → making decisions now standing since scans → making more later standing since scans
  done_later : ∀ {decisions more execution}, decisions ⊆ more → done decisions execution →
    done more execution
  written : ∀ decisions (provider : SchemaProvider) (scope : Scope) ref serial,
    provider.Each (entry decisions scope.now) →
    (provider.registerTable scope ref serial).Each (entry decisions scope.now)
  begun : ∀ decisions now standing, making decisions now standing now []

variable {facts : Facts}

def Facts.Follows (facts : Facts) (decisions : List (Nat × Nat)) (now : Nat) (run : StageRun) : Prop :=
  match run.phase with
  | .looking => True
  | .planning _ since _ scans => facts.making decisions now run.ticket.standing since scans
  | .building _ since _ scans build => facts.making decisions now run.ticket.standing since scans ∧
      facts.build decisions now run.ticket.standing build

lemma Facts.Follows.later {decisions more : List (Nat × Nat)} {now later : Nat}
    (follows : facts.Follows decisions now run) (sub : decisions ⊆ more) (after : now ≤ later) :
    facts.Follows more later run := by
  unfold Facts.Follows at follows ⊢
  split at follows
  · trivial
  · exact facts.making_later sub after follows
  · exact ⟨facts.making_later sub after follows.1,facts.build_later sub after follows.2⟩

structure Upholds (facts : Facts) (process : WorkerProcess) : Prop where
  cached : process.Cached (facts.entry process.decisions process.now)
  runs : ∀ index run, process.runs index = some run → facts.Follows process.decisions process.now run
  touched : ∀ build ∈ process.touched, facts.build process.decisions process.now build.scope.standing build
  ready : ∀ key plan, process.cache.entries key = some (.ready plan) → facts.ready plan
  done : ∀ execution ∈ process.executed, facts.done process.decisions execution

/-- What a resolution leaves in the catalog agrees with the facts, a build it begins too, and what it
answers is as told. -/
def Answers (facts : Facts) (cfg : CatalogConfig) (process : WorkerProcess) (ref : TableRef)
    (standing : Standing) (pins : Option (List (String × SnapshotIdentity))) (replicated : Bool)
    (trouble : Trouble) (told : List (Nat × Nat) → ResolvedTable → Prop) : Prop :=
  ∀ catalog resolution decisions, process.catalog ref = some catalog →
    (catalog.schema ref.namespace_).Effect cfg (process.scope ref standing pins replicated) ref
      process.serial (process.backend ref trouble) resolution →
    decisions = (resolution.decided.map fun serial => (serial,process.now)).toList ++ process.decisions →
    resolution.after.Each (facts.entry decisions process.now) ∧ match resolution.outcome with
      | .answered answer => ∀ provider, answer = .ok (some provider) → told decisions provider
      | .building bumps metadata access => facts.build decisions process.now standing ⟨catalog.id,
          catalog.authorizer,ref,process.scope ref standing pins replicated,process.serial,metadata,access,bumps⟩

lemma Answers.mono {told other : List (Nat × Nat) → ResolvedTable → Prop}
    (answers : process.Answers facts cfg ref standing pins replicated trouble told)
    (weaker : ∀ decisions provider, told decisions provider → other decisions provider) :
    process.Answers facts cfg ref standing pins replicated trouble other := by
  intro catalog resolution decisions found effect same
  obtain ⟨kept,telling⟩ := answers catalog resolution decisions found effect same
  refine ⟨kept,?_⟩
  split at telling
  · exact fun provider answer => weaker _ _ (telling provider answer)
  · exact telling

namespace Upholds
variable (upholds : process.Upholds facts)
include upholds

lemma setRun (fine : ∀ new, run = some new → facts.Follows process.decisions process.now new) :
    (process.setRun index run).Upholds facts where
  cached := upholds.cached.congr rfl
  runs := by
    intro other new there
    unfold WorkerProcess.setRun at there
    simp only [Function.update_apply] at there
    split at there
    · exact fine new there
    · exact upholds.runs other new there
  touched := upholds.touched
  ready := upholds.ready
  done := upholds.done

lemma execute (fine : facts.done process.decisions ⟨standing,process.now,scans⟩) :
    (process.execute standing scans).Upholds facts where
  cached := upholds.cached.congr rfl
  runs := upholds.runs
  touched := upholds.touched
  ready := upholds.ready
  done := List.forall_mem_cons.mpr ⟨fine,upholds.done⟩

lemma setCache {cache : StagePlanCache}
    (fine : ∀ key plan, cache.entries key = some (.ready plan) → facts.ready plan) :
    ({process with cache} : WorkerProcess).Upholds facts :=
  ⟨upholds.cached.congr rfl,upholds.runs,upholds.touched,fine,upholds.done⟩

lemma setTouched {touched : List Build}
    (fine : ∀ build ∈ touched, facts.build process.decisions process.now build.scope.standing build) :
    ({process with touched} : WorkerProcess).Upholds facts :=
  ⟨upholds.cached.congr rfl,upholds.runs,fine,upholds.ready,upholds.done⟩

lemma completeBuild {key : StagePlanKey} {made : Option StagePlan}
    (fine : ∀ plan, made = some plan → facts.ready plan) :
    ({process with cache := process.cache.completeBuild key made} : WorkerProcess).Upholds facts := by
  apply upholds.setCache
  intro other plan there
  rcases StagePlanCache.ready_of_completeBuild there with before | made_
  · exact upholds.ready other plan before
  · exact fine plan made_

lemma abandon (index owned) : (process.abandon index owned).Upholds facts := by
  have removed : (process.setRun index none).Upholds facts := upholds.setRun (by rintro _ ⟨⟩)
  cases owned with
  | none => exact removed
  | some key =>
    apply @completeBuild _ facts removed key none
    rintro _ ⟨⟩

lemma finish (ready : facts.ready ⟨scans,standing⟩)
    (done : facts.done process.decisions ⟨standing,process.now,scans⟩) :
    (process.finish index standing owned scans).Upholds facts := by
  have executed : ((process.setRun index none).execute standing scans).Upholds facts :=
    (upholds.setRun (by rintro _ ⟨⟩)).execute done
  cases owned with
  | none => exact executed
  | some key =>
    apply @completeBuild _ facts executed key (some ⟨scans,standing⟩)
    rintro _ ⟨⟩
    exact ready

lemma look {ticket : StageTicket} {key : Option StagePlanKey}
    (running : process.runs index = some ⟨ticket,key,.looking⟩)
    (taken : ∀ use ∈ process.takes (.look index), facts.ready use.2 →
      facts.done process.decisions ⟨use.1,process.now,use.2.scans⟩) :
    (process.look planner index ⟨ticket,key,.looking⟩).Upholds facts := by
  have planning : ∀ (cache : StagePlanCache) owned, (∀ other plan,
      cache.entries other = some (.ready plan) → facts.ready plan) →
      (({process with cache} : WorkerProcess).setRun index (some ⟨ticket,key,
        .planning owned process.now (planner.tablesOf ticket.sql) []⟩)).Upholds facts := by
    intro cache owned older
    apply (upholds.setCache older).setRun
    rintro _ ⟨⟩
    exact facts.begun _ _ _
  unfold WorkerProcess.look
  cases key with
  | none => exact planning process.cache none upholds.ready
  | some key =>
    have older : ∀ other plan, (process.cache.lookup key).2.entries other = some (.ready plan) →
        facts.ready plan := fun other plan there =>
      upholds.ready other plan (StagePlanCache.ready_of_lookup there)
    simp only [Option.elim_some]
    cases found : (process.cache.lookup key).1 with
    | none => exact planning _ none older
    | some way =>
      cases way with
      | build => exact planning _ (some key) older
      | wait => exact upholds.setCache older
      | hit plan =>
        apply execute
        · exact (upholds.setCache older).setRun (by rintro _ ⟨⟩)
        · exact taken (ticket.standing,plan) (takes_look running found)
            (upholds.ready key plan (StagePlanCache.entries_of_hit found))

lemma tables {ref : TableRef} {catalog : Catalog} (found : process.catalog ref = some catalog)
    {provider : SchemaProvider} (same : provider.authorizer = catalog.authorizer)
    (fine : provider.Each (facts.entry process.decisions process.now)) :
    (process.setCatalog ref (catalog.setSchema ref.namespace_ provider)).Upholds facts :=
  ⟨upholds.cached.setSchema found same fine,upholds.runs,upholds.touched,upholds.ready,upholds.done⟩

lemma bump (index) : (process.bump index).Upholds facts :=
  ⟨upholds.cached.bump index,upholds.runs,upholds.touched,upholds.ready,upholds.done⟩

lemma later {after : WorkerProcess} (sub : process.decisions ⊆ after.decisions) (now : process.now ≤ after.now)
    (runs : after.runs = process.runs) (touched : after.touched = process.touched)
    (cache : after.cache = process.cache) (executed : after.executed = process.executed)
    (cached : after.Cached (facts.entry after.decisions after.now)) :
    after.Upholds facts where
  cached := cached
  runs index run there := (upholds.runs index run (runs ▸ there)).later sub now
  touched build mem := facts.build_later sub now (upholds.touched build (touched ▸ mem))
  ready := cache ▸ upholds.ready
  done execution mem := facts.done_later sub (upholds.done execution (executed ▸ mem))

lemma resolveTable {ref : TableRef} {pins : Option (List (String × SnapshotIdentity))} {replicated : Bool}
    {trouble : Trouble} {told : List (Nat × Nat) → ResolvedTable → Prop}
    (answers : process.Answers facts cfg ref standing pins replicated trouble told) :
    let out := process.resolveTable cfg ref standing pins replicated trouble
    out.2.Upholds facts ∧ out.2.now = process.now ∧ process.decisions ⊆ out.2.decisions ∧
      match out.1 with
      | .inl answer => ∀ provider, answer = .ok (some provider) → told out.2.decisions provider
      | .inr build => facts.build out.2.decisions out.2.now standing build ∧ build.scope.standing = standing := by
  intro out
  obtain ⟨apart,nothing | ⟨catalog,resolution,found,effect,answer,decisions,engines⟩⟩ := resolveTable_spec
  · have same : out = (.inl (.ok none),process) := nothing
    rw [same]
    exact ⟨upholds,rfl,List.Subset.refl _,by rintro _ ⟨⟩⟩
  obtain ⟨kept,telling⟩ := answers catalog resolution out.2.decisions found effect decisions
  have sub : process.decisions ⊆ out.2.decisions := by
    rw [show out.2.decisions = _ from decisions]
    exact List.subset_append_right _ _
  have now : out.2.now = process.now := apart.now
  refine ⟨upholds.later sub now.ge apart.runs apart.touched apart.cache apart.executed ?_,now,sub,?_⟩
  · rw [now]
    exact Cached.resolved (upholds.cached.mono fun _ _ => facts.entry_later sub le_rfl) found
      effect.authorizer kept engines
  · rw [show out.1 = _ from answer,now]
    cases given : resolution.outcome with
    | answered answer =>
      rw [given] at telling
      exact telling
    | building bumps metadata access =>
      rw [given] at telling
      exact ⟨telling,rfl⟩

lemma goOn (making : facts.making process.decisions process.now run.ticket.standing since scans)
    (told : ∀ provider, answer = .ok (some provider) →
      facts.making process.decisions process.now run.ticket.standing since scans →
      facts.making process.decisions process.now run.ticket.standing since (scans ++ [provider])) :
    (process.goOn index run owned since todo scans answer).Upholds facts := by
  unfold WorkerProcess.goOn
  split
  · next provider =>
    apply upholds.setRun
    rintro _ ⟨⟩
    exact told provider rfl making
  · exact upholds.abandon index owned

lemma resolveNext (making : facts.making process.decisions process.now run.ticket.standing since scans)
    (answers : process.Answers facts cfg ⟨run.ticket.engine,name.1,name.2.1,name.2.2⟩ run.ticket.standing
        (some run.ticket.pins) (planner.isReplicated run.ticket.replicated name.2.2) trouble
        fun decisions provider =>
          facts.making decisions process.now run.ticket.standing since scans →
          facts.making decisions process.now run.ticket.standing since (scans ++ [provider])) :
    (process.resolveNext cfg planner index run trouble owned since scans name todo).Upholds facts := by
  obtain ⟨resolved,now,sub,told⟩ := upholds.resolveTable answers
  have making := facts.making_later sub now.ge making
  unfold WorkerProcess.resolveNext
  simp only
  split
  · next answer answered =>
    rw [answered] at told
    exact resolved.goOn making (now ▸ told)
  · next build answered =>
    rw [answered] at told
    apply resolved.setRun
    rintro _ ⟨⟩
    exact ⟨making,told.1⟩

lemma publishTable (fine : ∀ entry, build.Makes process.now entry →
      facts.entry process.decisions process.now build.principal entry) :
    let out := process.publishTable cfg build builds
    out.2.Upholds facts ∧ out.2.now = process.now ∧ out.2.decisions = process.decisions ∧
      ∀ provider, out.1 = .ok (some provider) → ∃ entry, build.Makes process.now entry ∧ provider = entry.provider := by
  intro out
  obtain ⟨apart,decisions,⟨fault,failed⟩ | ⟨entry,makes,answer,cached⟩⟩ := publishTable_spec
  · have same : out = (.error fault,process) := failed
    rw [same]
    exact ⟨upholds,rfl,rfl,nofun⟩
  have now : out.2.now = process.now := apart.now
  have same : out.2.decisions = process.decisions := decisions
  refine ⟨upholds.later (same ▸ List.Subset.refl _) now.ge apart.runs apart.touched apart.cache apart.executed ?_,
    now,same,?_⟩
  · rw [now,same]
    exact cached _ upholds.cached (fine entry makes)
  · intro provider given
    have told : out.1 = .ok (some entry.provider) := answer
    rw [told] at given
    cases given
    exact ⟨entry,makes,rfl⟩

end Upholds

/-- The build that an event finishes. -/
def published (process : WorkerProcess) : WorkerEvent → Option Build
  | .publish index _ => match process.runs index with
    | some ⟨_,_,.building _ _ _ _ build⟩ => some build
    | _ => none
  | .publishTouched place _ => process.touched[place]?
  | _ => none

structure Facts.Allow (facts : Facts) (cfg : CatalogConfig) (planner : Planner)
    (process : WorkerProcess) (event : WorkerEvent) : Prop where
  taken : ∀ use ∈ process.takes event, facts.ready use.2 →
    facts.done process.decisions ⟨use.1,process.now,use.2.scans⟩
  made : ∀ index ticket key owned since scans, event = .finish index →
    process.runs index = some ⟨ticket,key,.planning owned since [] scans⟩ →
    facts.ready ⟨scans,ticket.standing⟩ ∧
      facts.done process.decisions ⟨ticket.standing,process.now,scans⟩
  touched : ∀ ref standing pins replicated trouble,
    event = .touch ref standing pins replicated trouble →
    process.Answers facts cfg ref standing pins replicated trouble fun _ _ => True
  resolved : ∀ index (ticket : StageTicket) key owned since name todo scans trouble,
    event = .resolve index trouble →
    process.runs index = some ⟨ticket,key,.planning owned since (name::todo) scans⟩ →
    process.Answers facts cfg ⟨ticket.engine,name.1,name.2.1,name.2.2⟩ ticket.standing
      (some ticket.pins) (planner.isReplicated ticket.replicated name.2.2) trouble
      fun decisions provider => facts.making decisions process.now ticket.standing since scans →
        facts.making decisions process.now ticket.standing since (scans ++ [provider])
  published : ∀ build ∈ process.published event, ∀ standing entry,
    facts.build process.decisions process.now standing build → build.Makes process.now entry →
    facts.entry process.decisions process.now build.principal entry ∧
      ∀ since scans, facts.making process.decisions process.now standing since scans →
        facts.making process.decisions process.now standing since (scans ++ [entry.provider])

lemma Upholds.step {event : WorkerEvent} (upholds : process.Upholds facts)
    (allow : facts.Allow cfg planner process event) :
    (process.step cfg planner event).Upholds facts := by
  unfold WorkerProcess.step
  cases event with
  | enter index ticket cached =>
    simp only
    split
    · exact upholds
    · apply upholds.setRun
      rintro _ ⟨⟩
      trivial
  | look index =>
    simp only
    split
    · next running => exact upholds.look running allow.taken
    · exact upholds
  | resolve index trouble =>
    simp only
    split
    · next running =>
      exact upholds.resolveNext (upholds.runs _ _ running) (allow.resolved _ _ _ _ _ _ _ _ _ rfl running)
    · exact upholds
  | publish index builds =>
    simp only
    split
    · next ticket key owned since todo scans build running =>
      obtain ⟨making,begun⟩ := upholds.runs _ _ running
      have allowed := allow.published build (by simp [WorkerProcess.published,running]) ticket.standing
      obtain ⟨after,now,same,told⟩ := upholds.publishTable fun entry makes => (allowed entry begun makes).1
      apply after.goOn
      · rw [now,same]
        exact making
      · intro provider answer making
        obtain ⟨entry,makes,rfl⟩ := told provider answer
        rw [now,same] at making ⊢
        exact (allowed entry begun makes).2 _ _ making
    · exact upholds
  | finish index =>
    simp only
    split
    · next running =>
      obtain ⟨ready,done⟩ := allow.made _ _ _ _ _ _ rfl running
      exact upholds.finish ready done
    · exact upholds
  | touch ref standing pins replicated trouble =>
    obtain ⟨resolved,_,_,told⟩ := upholds.resolveTable (allow.touched _ _ _ _ _ rfl)
    simp only
    split
    · exact resolved
    · next build answered =>
      rw [answered] at told
      apply resolved.setTouched
      refine List.forall_mem_append.mpr ⟨resolved.touched,List.forall_mem_singleton.mpr ?_⟩
      rw [told.2]
      exact told.1
  | publishTouched place builds =>
    simp only
    split
    · exact upholds
    · next build there =>
      have begun := upholds.touched build (List.mem_of_getElem? there)
      obtain ⟨after,now,same,_⟩ := upholds.publishTable fun entry makes =>
        (allow.published build there _ entry begun makes).1
      exact after.setTouched fun other mem => after.touched other (List.mem_of_mem_eraseIdx mem)
  | ctas ref replicated metadata =>
    simp only
    split
    · exact upholds
    · next catalog found =>
      have set := (upholds.tables found rfl (facts.written _ _ (process.scope ref ⟨false,""⟩ none
        replicated) ref process.serial (upholds.cached _ _ _ found ref.namespace_))).bump
        ref.engine
      exact ⟨set.cached.congr rfl,set.runs,set.touched,set.ready,set.done⟩
  | refresh ref =>
    simp only
    split
    · exact upholds
    · next catalog found =>
      have each := upholds.cached _ _ _ found ref.namespace_
      have set := upholds.tables found rfl (each.evictTable ref.table)
      split
      · exact set.bump ref.engine
      · exact set
  | registerCatalog index name authorizer =>
    have set : (process.setCatalog ⟨index,name,"",""⟩ ⟨process.serial,authorizer,fun _ _ => none⟩).Upholds facts :=
      ⟨upholds.cached.setCatalog (by rintro _ _ _ ⟨⟩),upholds.runs,upholds.touched,upholds.ready,upholds.done⟩
    have bumped := set.bump index
    exact ⟨bumped.cached.congr rfl,bumped.runs,bumped.touched,bumped.ready,bumped.done⟩
  | setMetadata ref metadata =>
    exact ⟨upholds.cached.congr rfl,upholds.runs,upholds.touched,upholds.ready,upholds.done⟩
  | setPolicy ref access =>
    exact ⟨upholds.cached.congr rfl,upholds.runs,upholds.touched,upholds.ready,upholds.done⟩
  | setCap cap => exact upholds.setCache upholds.ready
  | advance span =>
    refine upholds.later (List.Subset.refl _) (Nat.le_add_right _ _) rfl rfl rfl rfl ?_
    exact Cached.congr (upholds.cached.mono fun _ _ =>
      facts.entry_later (List.Subset.refl _) (Nat.le_add_right _ span)) rfl

structure Fresh (process : WorkerProcess) : Prop where
  tables : ∀ engine name catalog, (process.engines engine).catalogs name = some catalog →
    ∀ space key, catalog.schemas space key = none
  entries : ∀ key, process.cache.entries key = none
  runs : ∀ index, process.runs index = none
  touched : process.touched = []
  executed : process.executed = []

lemma Fresh.upholds (fresh : process.Fresh) : process.Upholds facts where
  cached engine name catalog found space key entry there :=
    absurd ((fresh.tables engine name catalog found space key).symm.trans there) (by simp)
  runs index _ there := absurd ((fresh.runs index).symm.trans there) (by simp)
  touched build mem := by
    rw [fresh.touched] at mem
    cases mem
  ready key _ there := absurd ((fresh.entries key).symm.trans there) (by simp)
  done execution mem := by
    rw [fresh.executed] at mem
    cases mem

end WorkerProcess
end Oxidant.LakeFormation
