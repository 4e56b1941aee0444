import Oxidant.Lib.Prog
import Oxidant.Lib.Steps

/-! The lock of a journal directory: `.lock` is published by an exclusive link, shared by the process
that published it, and taken over from a dead holder under a second file `.lock.claim`. Many
processes acquire it, each of their requests a step of its own. -/
namespace Oxidant.History
open Lib

/-- The record a lock file holds. The defaults are those of a body that does not parse. -/
structure Holder where
  pid : Nat := 0
  role : String := "unknown"
  port : Nat := 0
  root : String := ""
  deriving DecidableEq, Repr

def Holder.rootOrUnknown (holder : Holder) : String :=
  if holder.root.isEmpty then "unknown" else holder.root

def Holder.disagreesWithRoot (holder : Holder) (ours : String) : Bool :=
  !holder.root.isEmpty && holder.root ≠ ours

structure HistoryConfig where
  root : String
  role : String
  port : Nat
  statementsDir : String

def lockError (cfg : HistoryConfig) (holder : Holder) : String :=
  let (dir,ours) := (cfg.statementsDir,cfg.root)
  let (pid,role,port,root) := (holder.pid,holder.role,holder.port,holder.rootOrUnknown)
  let out := s!"oxidant: the statement journal ({dir}) is locked by pid {pid} (role={role}, port={port}, data dir={root})."
  if holder.disagreesWithRoot ours then
    out ++ s!"\n         This process's data dir ({ours}) is not the holder's ({root}), so the two are sharing one\n         journal through OXIDANT_HISTORY_DIR. An explicit history dir wins over the root:\n         set OXIDANT_HISTORY_DIR to a distinct path for this process. Changing OXIDANT_DATA_DIR,\n         including OXIDANT_DATA_DIR_PER_PROCESS=1, will not separate them while it is set."
  else
    out ++ s!"\n         History and logs are per-process. Set OXIDANT_DATA_DIR (or OXIDANT_HISTORY_DIR, which\n         moves only the journal) to a distinct path for this process, or set\n         OXIDANT_DATA_DIR_PER_PROCESS=1 to use {ours}/<role>-<port>/."

/-- What `acquire_in` is given: the process, the directory and its name in an error, the holder
record, and the text of a refusal. -/
structure Caller where
  pid : Nat
  pid_pos : pid ≠ 0
  dir : String
  what : String
  role : String
  port : Nat
  root : String
  describe : Holder → String

namespace Caller

def body (me : Caller) : Holder := {pid := me.pid,role := me.role,port := me.port,root := me.root}

def claimBody (me : Caller) : Holder := {pid := me.pid}

def path (me : Caller) : String := me.dir ++ "/.lock"

def claimPath (me : Caller) : String := me.dir ++ "/.lock.claim"

end Caller

inductive LockFile where
  | lock
  | claim
  deriving DecidableEq, Repr

inductive PublishError where
  | alreadyExists
  | other (message : String)
  deriving DecidableEq, Repr

/-- `publish` stands for the private temporary with its body and the link that creates the name,
`modified` for a modification within `BODY_GRACE`. -/
inductive LockRequest where
  | createDir
  | publish (file : LockFile) (body : Holder)
  | read (file : LockFile)
  | alive (pid : Nat)
  | modified (file : LockFile)
  | remove (file : LockFile)
  deriving DecidableEq, Repr

abbrev LockAnswer : LockRequest → Type
  | .createDir => Except String Unit
  | .publish _ _ => Except PublishError Unit
  | .read _ => Holder
  | .alive _ | .modified _ => Bool
  | .remove _ => Unit

structure JournalDirLock where
  owned : Bool
  deriving DecidableEq, Repr

abbrev LockMethod := Act LockRequest LockAnswer Unit String

def publish (file : LockFile) (body : Holder) : LockMethod (Except PublishError Unit) :=
  Act.request (LockRequest.publish file body)

def readHolder (file : LockFile) : LockMethod Holder := Act.request (LockRequest.read file)

def removeFile (file : LockFile) : LockMethod Unit := Act.request (LockRequest.remove file)

def modifiedWithin (file : LockFile) : LockMethod Bool := Act.request (LockRequest.modified file)

def pidIsAlive (pid : Nat) : LockMethod Bool :=
  if pid = 0 then pure false else Act.request (LockRequest.alive pid)

def holderIsHeld (holder : Holder) (file : LockFile) : LockMethod Bool :=
  if holder.pid ≠ 0 then pidIsAlive holder.pid else modifiedWithin file

def refuseHeld (me : Caller) (holder : Holder) : LockMethod (Option JournalDirLock) := do
  if ← holderIsHeld holder .lock then Act.fail (me.describe holder) else return none

def reEntrant (me : Caller) : LockMethod (Option JournalDirLock) := do
  let holder ← readHolder .lock
  if holder.pid = me.pid then return some {owned := false} else refuseHeld me holder

def claimVerified (me : Caller) : LockMethod JournalDirLock := do
  let holder ← readHolder .lock
  if holder.pid = me.pid then return {owned := true} else Act.fail (me.describe holder)

namespace Claim

def takenOver (me : Caller) (holder : Holder) : String :=
  let (dir,pid) := (me.dir,holder.pid)
  s!"oxidant: the statement journal ({dir}) is being taken over by pid {pid}.\n         Another process is recovering this directory's lock; retry in a moment, or set OXIDANT_HISTORY_DIR (or OXIDANT_DATA_DIR) to a distinct path for this process."

def cannotCreate (me : Caller) (e : String) : String :=
  let path := me.claimPath
  s!"oxidant: cannot create takeover claim {path}: {e}"

def clearStale (next : LockMethod Unit) : LockMethod Unit := do
  removeFile .claim
  next

def replaceStale (me : Caller) (holder : Holder) (next : LockMethod Unit) : LockMethod Unit := do
  if ← holderIsHeld holder .claim then Act.fail (takenOver me holder) else clearStale next

def inspect (me : Caller) (attempt : Nat) (next : LockMethod Unit) : LockMethod Unit := do
  let holder ← readHolder .claim
  if attempt = 0 then replaceStale me holder next else Act.fail (takenOver me holder)

def takeFrom (me : Caller) : List Nat → LockMethod Unit
  | [] => Act.fail "the loop returns on every path"
  | attempt::rest => do
    match ← publish .claim me.claimBody with
    | .ok () => return ()
    | .error .alreadyExists => inspect me attempt (takeFrom me rest)
    | .error (.other e) => Act.fail (cannotCreate me e)

def take (me : Caller) : LockMethod Unit := takeFrom me [0,1]

end Claim

def cannotTakeOver (me : Caller) (error : PublishError) : String :=
  let path := me.path
  let e := match error with
    | .alreadyExists => "already exists"
    | .other e => e
  s!"oxidant: cannot take over the stale lockfile {path}: {e}"

def republish (me : Caller) : LockMethod (Option JournalDirLock) := do
  match ← publish .lock me.body with
  | .ok () => return none
  | .error e => Act.fail (cannotTakeOver me e)

def relink (me : Caller) : LockMethod (Option JournalDirLock) := do
  removeFile .lock
  republish me

/-- What is done while the claim is held; `none` is a lock of our own. -/
def takeOver (me : Caller) : LockMethod (Option JournalDirLock) := do
  match ← reEntrant me with
  | some shared => return some shared
  | none => relink me

def cannotCreateDir (me : Caller) (e : String) : String :=
  let (what,dir) := (me.what,me.dir)
  s!"oxidant: cannot create {what} {dir}: {e}"

def cannotCreateLock (me : Caller) (e : String) : String :=
  let path := me.path
  s!"oxidant: cannot create lockfile {path}: {e}"

def unclaim (me : Caller) (outcome : Except String (Option JournalDirLock)) : LockMethod JournalDirLock := do
  removeFile .claim
  match ← Act.raise outcome with
  | some shared => return shared
  | none => claimVerified me

/-- The claim is dropped on every way out of the takeover. -/
def underClaim (me : Caller) : LockMethod JournalDirLock := do
  let outcome ← Act.attempt (takeOver me)
  unclaim me outcome

def takeOverStale (me : Caller) : LockMethod JournalDirLock := do
  Claim.take me
  underClaim me

def shareOrTakeOver (me : Caller) : LockMethod JournalDirLock := do
  match ← reEntrant me with
  | some shared => return shared
  | none => takeOverStale me

def publishOrShare (me : Caller) : LockMethod JournalDirLock := do
  match ← publish .lock me.body with
  | .ok () => claimVerified me
  | .error .alreadyExists => shareOrTakeOver me
  | .error (.other e) => Act.fail (cannotCreateLock me e)

def acquireIn (me : Caller) : LockMethod JournalDirLock := do
  let created : Except String Unit ← Act.request LockRequest.createDir
  match created with
  | .error e => Act.fail (cannotCreateDir me e)
  | .ok () => publishOrShare me

def acquire (cfg : HistoryConfig) (pid : Nat) (running : pid ≠ 0) : LockMethod JournalDirLock :=
  acquireIn {
    pid,pid_pos := running,dir := cfg.statementsDir,what := "the statement journal dir"
    role := cfg.role,port := cfg.port,root := cfg.root,describe := lockError cfg}

structure LockWorld where
  files : LockFile → Option Holder
  alive : Nat → Bool

structure LockChoice where
  error : Option String := none
  modified : Bool := false
  deriving DecidableEq, Repr

namespace LockWorld

def put (world : LockWorld) (file : LockFile) (content : Option Holder) : LockWorld :=
  {world with files := Function.update world.files file content}

def read (world : LockWorld) (file : LockFile) : Holder := (world.files file).getD {}

def publish (world : LockWorld) (choice : LockChoice) (file : LockFile) (body : Holder) :
    Except PublishError Unit × LockWorld :=
  match choice.error,world.files file with
  | some e,_ => (.error (.other e),world)
  | none,some _ => (.error .alreadyExists,world)
  | none,none => (.ok (),world.put file (some body))

def modified (world : LockWorld) (choice : LockChoice) (file : LockFile) : Bool :=
  (world.files file).isSome && choice.modified

def reply : Device LockRequest LockAnswer LockChoice LockWorld
  | choice,world,.createDir => (choice.error.elim (.ok ()) .error,world)
  | choice,world,.publish file body => world.publish choice file body
  | _,world,.read file => (world.read file,world)
  | _,world,.alive pid => (world.alive pid,world)
  | choice,world,.modified file => (world.modified choice file,world)
  | _,world,.remove file => ((),world.put file none)

end LockWorld

inductive Stage where
  | creating
  | publishing
  | examining
  | weighing (holder : Holder)
  | claiming (attempt : Nat)
  | inspecting (attempt : Nat)
  | doubting (holder : Holder)
  | clearing
  | rereading
  | reweighing (holder : Holder)
  | unlinking
  | republishing
  | unclaiming (outcome : Except String (Option JournalDirLock))
  | verifying
  | returned (result : Except String JournalDirLock)

namespace Stage

def held (world : LockWorld) (choice : LockChoice) (file : LockFile) (holder : Holder) : Bool :=
  if holder.pid ≠ 0 then world.alive holder.pid else world.modified choice file

def step (me : Caller) (choice : LockChoice) (world : LockWorld) : Stage → Stage × LockWorld
  | creating => match choice.error with
    | some e => (returned (.error (cannotCreateDir me e)),world)
    | none => (publishing,world)
  | publishing => match world.publish choice .lock me.body with
    | (.ok (),after) => (verifying,after)
    | (.error .alreadyExists,after) => (examining,after)
    | (.error (.other e),after) => (returned (.error (cannotCreateLock me e)),after)
  | examining =>
    if (world.read .lock).pid = me.pid then (returned (.ok {owned := false}),world)
    else (weighing (world.read .lock),world)
  | weighing holder =>
    if held world choice .lock holder then (returned (.error (me.describe holder)),world)
    else (claiming 0,world)
  | claiming attempt => match world.publish choice .claim me.claimBody with
    | (.ok (),after) => (rereading,after)
    | (.error .alreadyExists,after) => (inspecting attempt,after)
    | (.error (.other e),after) => (returned (.error (Claim.cannotCreate me e)),after)
  | inspecting attempt =>
    if attempt = 0 then (doubting (world.read .claim),world)
    else (returned (.error (Claim.takenOver me (world.read .claim))),world)
  | doubting holder =>
    if held world choice .claim holder then (returned (.error (Claim.takenOver me holder)),world)
    else (clearing,world)
  | clearing => (claiming 1,world.put .claim none)
  | rereading =>
    if (world.read .lock).pid = me.pid then (unclaiming (.ok (some {owned := false})),world)
    else (reweighing (world.read .lock),world)
  | reweighing holder =>
    if held world choice .lock holder then (unclaiming (.error (me.describe holder)),world)
    else (unlinking,world)
  | unlinking => (republishing,world.put .lock none)
  | republishing => match world.publish choice .lock me.body with
    | (.ok (),after) => (unclaiming (.ok none),after)
    | (.error e,after) => (unclaiming (.error (cannotTakeOver me e)),after)
  | unclaiming (.ok none) => (verifying,world.put .claim none)
  | unclaiming (.ok (some shared)) => (returned (.ok shared),world.put .claim none)
  | unclaiming (.error e) => (returned (.error e),world.put .claim none)
  | verifying =>
    if (world.read .lock).pid = me.pid then (returned (.ok {owned := true}),world)
    else (returned (.error (me.describe (world.read .lock))),world)
  | returned result => (returned result,world)

def attemptsFrom : Nat → List Nat
  | 0 => [0,1]
  | attempt+1 => [attempt+1]

def rest (me : Caller) : Stage → LockMethod JournalDirLock
  | creating => acquireIn me
  | publishing => publishOrShare me
  | examining => shareOrTakeOver me
  | weighing holder => do
    match ← refuseHeld me holder with
    | some shared => return shared
    | none => takeOverStale me
  | claiming attempt => do
    Claim.takeFrom me (attemptsFrom attempt)
    underClaim me
  | inspecting attempt => do
    Claim.inspect me attempt (Claim.takeFrom me (attemptsFrom attempt).tail)
    underClaim me
  | doubting holder => do
    Claim.replaceStale me holder (Claim.takeFrom me [1])
    underClaim me
  | clearing => do
    Claim.clearStale (Claim.takeFrom me [1])
    underClaim me
  | rereading => underClaim me
  | reweighing holder => do
    let outcome ← Act.attempt do
      match ← refuseHeld me holder with
      | some shared => return some shared
      | none => relink me
    unclaim me outcome
  | unlinking => do
    let outcome ← Act.attempt (relink me)
    unclaim me outcome
  | republishing => do
    let outcome ← Act.attempt (republish me)
    unclaim me outcome
  | unclaiming outcome => unclaim me outcome
  | verifying => claimVerified me
  | returned result => Act.raise result

lemma holderIsHeld_advance :
    ((holderIsHeld holder file ()).bind next).advance LockWorld.reply choice world =
      (next (.ok (held world choice file holder),()),world) := by
  by_cases named : holder.pid ≠ 0
  · simp only [holderIsHeld,pidIsAlive,held,if_pos named,if_neg named]
    rfl
  · simp only [holderIsHeld,held,if_neg named]
    rfl

lemma rest_advance (stage : Stage) :
    (stage.rest me ()).advance LockWorld.reply choice world =
      ((stage.step me choice world).1.rest me (),(stage.step me choice world).2) := by
  cases stage with
  | creating =>
    change (_,_) = _
    simp only [step,LockWorld.reply]
    cases choice.error <;> rfl
  | publishing =>
    change (_,_) = _
    simp only [step,LockWorld.reply]
    rcases world.publish choice .lock me.body with ⟨⟨_ | _⟩ | _,_⟩ <;> rfl
  | examining =>
    change ((((if (world.read .lock).pid = me.pid then pure (some ⟨false⟩) else
      refuseHeld me (world.read .lock)) : LockMethod _) ()).bind _,world) = _
    simp only [step]
    split <;> rfl
  | weighing holder =>
    change (((holderIsHeld holder .lock ()).bind _).bind _).advance _ _ _ = _
    rw [Prog.bind_assoc,holderIsHeld_advance]
    simp only [step]
    cases held world choice .lock holder <;> rfl
  | claiming attempt =>
    cases attempt <;> change (_,_) = _ <;> simp only [step,LockWorld.reply] <;>
      rcases world.publish choice .claim me.claimBody with ⟨⟨_ | _⟩ | _,_⟩ <;> rfl
  | inspecting attempt => cases attempt <;> rfl
  | doubting holder =>
    change (((holderIsHeld holder .claim ()).bind _).bind _).advance _ _ _ = _
    rw [Prog.bind_assoc,holderIsHeld_advance]
    simp only [step]
    cases held world choice .claim holder <;> rfl
  | clearing => rfl
  | rereading =>
    change (((((if (world.read .lock).pid = me.pid then pure (some ⟨false⟩) else
      refuseHeld me (world.read .lock)) : LockMethod _) ()).bind _).bind _ |>.bind _,world) = _
    simp only [step]
    split <;> rfl
  | reweighing holder =>
    change (((((holderIsHeld holder .lock ()).bind _).bind _).bind _).bind _).advance _ _ _ = _
    rw [Prog.bind_assoc,Prog.bind_assoc,Prog.bind_assoc,holderIsHeld_advance]
    simp only [step]
    cases held world choice .lock holder with
    | true => rfl
    | false => exact congrArg (·,world) (Prog.bind_assoc (relink me ()) _ _).symm
  | unlinking => rfl
  | republishing =>
    change (_,_) = _
    simp only [step,LockWorld.reply]
    rcases world.publish choice .lock me.body with ⟨_ | _,_⟩ <;> rfl
  | unclaiming outcome => rcases outcome with _ | (_ | _) <;> rfl
  | verifying =>
    change (((if (world.read .lock).pid = me.pid then pure {owned := true} else
      Act.fail (me.describe (world.read .lock))) : LockMethod JournalDirLock) (),world) = _
    simp only [step]
    split <;> rfl
  | returned result => cases result <;> rfl

/-- What each stage takes at most: a claim is tried twice. -/
def remaining : Stage → Nat
  | creating => 16
  | publishing => 15
  | examining => 14
  | weighing _ => 13
  | claiming attempt => if attempt = 0 then 12 else 8
  | inspecting attempt => if attempt = 0 then 11 else 7
  | doubting _ => 10
  | clearing => 9
  | rereading => 6
  | reweighing _ => 5
  | unlinking => 4
  | republishing => 3
  | unclaiming _ => 2
  | verifying => 1
  | returned _ => 0

lemma remaining_step (stage : Stage) : (stage.step me choice world).1.remaining ≤ stage.remaining - 1 := by
  cases stage with
  | unclaiming outcome => rcases outcome with _ | (_ | _) <;> simp [step,remaining]
  | claiming attempt =>
    simp only [step,remaining]
    rcases world.publish choice .claim me.claimBody with ⟨⟨_ | _⟩ | _,_⟩ <;> simp <;> split <;> omega
  | _ =>
    simp only [step,remaining]
    grind [remaining]

/-- A request of a call, answered in what other processes have made of the directory. -/
abbrev Turn := LockChoice × (LockWorld → LockWorld)

def turn (me : Caller) (here : Stage × LockWorld) (turn : Turn) : Stage × LockWorld :=
  here.1.step me turn.1 (turn.2 here.2)

lemma remaining_run (me : Caller) (turns : List Turn) (here : Stage × LockWorld) :
    (Steps.run (turn me) here turns).1.remaining ≤ here.1.remaining - turns.length := by
  induction turns generalizing here with
  | nil => exact le_rfl
  | cons first turns ih =>
    have moved : (turn me here first).1.remaining ≤ _ := remaining_step here.1
    have left := ih (turn me here first)
    simp only [Steps.run,List.foldl_cons,List.length_cons] at left ⊢
    omega

end Stage

abbrev Call := Prog LockRequest LockAnswer (Except String JournalDirLock × Unit)

def Call.turn (here : Call × LockWorld) (turn : Stage.Turn) : Call × LockWorld :=
  here.1.advance LockWorld.reply turn.1 (turn.2 here.2)

lemma Stage.rest_run (me : Caller) (turns : List Turn) (stage : Stage) (world : LockWorld) :
    Steps.run Call.turn (stage.rest me (),world) turns =
      Prod.map (fun stage => stage.rest me ()) id (Steps.run (turn me) (stage,world) turns) := by
  induction turns generalizing stage world with
  | nil => rfl
  | cons first turns ih =>
    simp only [Steps.run,List.foldl_cons] at ih ⊢
    rw [Call.turn,rest_advance,ih]
    rfl

inductive LockThread where
  | idle
  | calling (stage : Stage)
  | holding (owned : Bool)
  | releasing

def Stage.thread : Stage → LockThread
  | .returned (.ok guard) => .holding guard.owned
  | .returned (.error _) => .idle
  | stage => .calling stage

structure LockSystem (ι : Type) where
  world : LockWorld
  threads : ι → LockThread

inductive LockEvent (ι : Type) where
  | acquire (thread : ι)
  | step (thread : ι) (choice : LockChoice)
  | drop (thread : ι)
  | crash (pid : Nat)

namespace LockSystem
variable {ι : Type} [DecidableEq ι]

def set (system : LockSystem ι) (thread : ι) (next : LockThread) (world : LockWorld) : LockSystem ι :=
  {world,threads := Function.update system.threads thread next}

/-- A process that dies leaves its files as they are, and no process has its pid again. -/
def crash (callers : ι → Caller) (system : LockSystem ι) (pid : Nat) : LockSystem ι where
  world := {system.world with alive := Function.update system.world.alive pid false}
  threads thread := if (callers thread).pid = pid then .idle else system.threads thread

def step (callers : ι → Caller) (system : LockSystem ι) : LockEvent ι → LockSystem ι
  | .acquire thread => match system.threads thread with
    | .idle =>
      if system.world.alive (callers thread).pid then
        system.set thread (.calling .creating) system.world
      else system
    | _ => system
  | .step thread choice => match system.threads thread with
    | .calling stage =>
      let out := stage.step (callers thread) choice system.world
      system.set thread out.1.thread out.2
    | .releasing => system.set thread .idle (system.world.put .lock none)
    | _ => system
  | .drop thread => match system.threads thread with
    | .holding true => system.set thread .releasing system.world
    | .holding false => system.set thread .idle system.world
    | _ => system
  | .crash pid => system.crash callers pid

def Exclusive (callers : ι → Caller) (system : LockSystem ι) : Prop :=
  ∀ first second owned shared, system.threads first = .holding owned → system.threads second = .holding shared →
    system.world.alive (callers first).pid = true → system.world.alive (callers second).pid = true →
    (callers first).pid = (callers second).pid

end LockSystem
end Oxidant.History
