import Mathlib.Data.Fintype.Basic
import Oxidant.History.LockSystem

/-! One process per directory. A process that holds the directory is the one its lock file names:
the file is removed by its owner and by takeovers, and a takeover removes it under the claim. -/
namespace Oxidant.History
open Lib

namespace LockThread

def takesOver : LockThread → Bool
  | calling (.reweighing _) | calling .unlinking => true
  | _ => false

def claims : LockThread → Bool
  | calling .rereading | calling (.reweighing _) | calling .unlinking | calling .republishing
  | calling (.unclaiming _) => true
  | _ => false

def guarded : LockThread → Bool
  | holding _ | calling (.unclaiming (.ok (some _))) | calling (.returned (.ok _)) => true
  | _ => false

def owns : LockThread → Bool
  | calling .verifying | calling (.unclaiming (.ok none)) | holding true | releasing => true
  | calling (.unclaiming (.ok (some guard))) | calling (.returned (.ok guard)) => guard.owned
  | _ => false

lemma takesOver_of_claims {held : LockThread} (apart : held.claims = false) : held.takesOver = false := by
  rcases held with _ | stage | _ | _ <;> try rfl
  cases stage <;> first | rfl | cases apart

end LockThread

namespace LockWorld

def Names (world : LockWorld) (file : LockFile) (pid : Nat) : Prop :=
  ∃ holder ∈ world.files file, holder.pid = pid

def NamesLive (world : LockWorld) (file : LockFile) : Prop :=
  ∃ holder ∈ world.files file, holder.pid ≠ 0 ∧ world.alive holder.pid = true

instance (world : LockWorld) (file : LockFile) : Decidable (world.NamesLive file) :=
  inferInstanceAs (Decidable (∃ holder ∈ world.files file, _))

variable {world : LockWorld} (content : Option Holder)

@[simp] lemma files_put_same : (world.put file content).files file = content := by simp [put]

@[simp] lemma files_put_lock : (world.put .lock content).files .claim = world.files .claim := by simp [put]

@[simp] lemma files_put_claim : (world.put .claim content).files .lock = world.files .lock := by simp [put]

@[simp] lemma alive_put : (world.put file content).alive = world.alive := rfl

lemma names_put (named : body.pid = pid) : (world.put file (some body)).Names file pid :=
  ⟨body,by simp,named⟩

lemma names_of_read (running : pid ≠ 0) (found : (world.read file).pid = pid) : world.Names file pid := by
  unfold read at found
  cases held : world.files file with
  | none =>
    rw [held] at found
    exact absurd found.symm running
  | some holder =>
    rw [held] at found
    exact ⟨holder,held,found⟩

lemma read_of_mem (found : holder ∈ world.files file) : world.read file = holder := by
  rw [read,Option.mem_def.mp found]
  rfl

lemma publish_cases (world : LockWorld) :
    (world.files file = none ∧ world.publish choice file body = (.ok (),world.put file (some body))) ∨
      ∃ error, world.publish choice file body = (.error error,world) := by
  unfold publish
  cases choice.error with
  | some e => exact .inr ⟨_,rfl⟩
  | none =>
    cases held : world.files file with
    | some holder => exact .inr ⟨_,rfl⟩
    | none => exact .inl ⟨rfl,rfl⟩

end LockWorld

namespace LockSystem
variable [DecidableEq ι]

/-- A guard is dropped while its process has no other, a stale claim names no running process, and
no call publishes the lock between another's second look at it and its removal. -/
def OrderlyStep (callers : ι → Caller) (system : LockSystem ι) (thread : ι) : LockThread → Prop
  | .releasing => ∀ other, other ≠ thread → (callers other).pid = (callers thread).pid →
      (system.threads other).guarded = false
  | .calling .clearing => ¬system.world.NamesLive .claim
  | .calling .publishing => system.world.files .lock = none →
      ∀ other, (system.threads other).takesOver = false
  | _ => True

def advance (callers : ι → Caller) (system : LockSystem ι) (thread : ι) (choice : LockChoice)
    (stage : Stage) : LockSystem ι :=
  system.set thread (stage.step (callers thread) choice system.world).1.thread
    (stage.step (callers thread) choice system.world).2

def Orderly (callers : ι → Caller) (system : LockSystem ι) : LockEvent ι → Prop
  | .step thread _ => system.OrderlyStep callers thread (system.threads thread)
  | _ => True

end LockSystem

structure Fits (world : LockWorld) (pid : Nat) (thread : LockThread) : Prop where
  alive : thread ≠ .idle → world.alive pid = true
  lock : thread.guarded = true ∨ thread.owns = true → world.Names .lock pid
  claim : thread.claims = true → world.Names .claim pid
  reread : ∀ holder, thread = .calling (.reweighing holder) →
    ∀ found ∈ world.files .lock, found.pid = holder.pid
  stale : thread = .calling .unlinking → ¬world.NamesLive .lock

namespace Fits
lemma idle : Fits world pid .idle where
  alive apart := absurd rfl apart
  lock needs := by cases needs <;> contradiction
  claim needs := by contradiction
  reread _ same := by contradiction
  stale same := by contradiction

lemma calm (alive : world.alive pid = true) (calm : thread.takesOver = false)
    (lock : thread.guarded = true ∨ thread.owns = true → world.Names .lock pid)
    (claim : thread.claims = true → world.Names .claim pid) : Fits world pid thread where
  alive _ := alive
  lock := lock
  claim := claim
  reread holder same := by
    subst same
    cases calm
  stale same := by
    subst same
    cases calm

lemma put_lock (fits : Fits world pid thread) (bare : thread.guarded = false) (apart : thread.owns = false)
    (calm : thread.takesOver = false ∨ content = none) :
    Fits (world.put .lock content) pid thread where
  alive := fits.alive
  lock needs := by simp [bare,apart] at needs
  claim needs := by
    obtain ⟨holder,found,same⟩ := fits.claim needs
    exact ⟨holder,by simpa using found,same⟩
  reread holder same found mem := by
    obtain calm | rfl := calm
    · subst same
      cases calm
    · simp at mem
  stale same := by
    obtain calm | rfl := calm
    · subst same
      cases calm
    · simp [LockWorld.NamesLive]

lemma put_claim (fits : Fits world pid thread)
    (apart : thread.claims = false) : Fits (world.put .claim content) pid thread where
  alive := fits.alive
  lock needs := by
    obtain ⟨holder,found,same⟩ := fits.lock needs
    exact ⟨holder,by simpa using found,same⟩
  claim needs := by simp [apart] at needs
  reread holder same found mem := fits.reread holder same found (by simpa using mem)
  stale same := by simpa [LockWorld.NamesLive] using fits.stale same

end Fits

/-- At most one thread is of the kind. -/
def Sole {ι : Type} (threads : ι → LockThread) (kind : LockThread → Bool) : Prop :=
  ∀ first second, kind (threads first) = true → kind (threads second) = true → first = second

namespace Sole
variable {threads : ι → LockThread} (sole : Sole threads kind)
include sole

lemma apart (held : kind (threads thread) = true) (apart : other ≠ thread) : kind (threads other) = false := by
  by_contra both
  exact apart (sole other thread (by simpa using both) held)

lemma update [DecidableEq ι] (new : kind next = true → kind (threads thread) = true ∨
    ∀ other, other ≠ thread → kind (threads other) = false) : Sole (Function.update threads thread next) kind := by
  have free (held : kind next = true) : ∀ other, other ≠ thread → kind (threads other) = false :=
    (new held).elim (fun held _ => sole.apart held) id
  intro first second one two
  by_cases left : first = thread <;> by_cases right : second = thread <;>
    simp only [left,right,Function.update_self,ne_eq,not_false_iff,Function.update_of_ne] at one two ⊢
  · exact absurd two (by simp [free one second right])
  · exact absurd one (by simp [free two first left])
  · exact sole first second one two

end Sole

structure Guarded {ι : Type} (callers : ι → Caller) (system : LockSystem ι) : Prop where
  fits : ∀ thread, Fits system.world (callers thread).pid (system.threads thread)
  owner : Sole system.threads LockThread.owns
  claimant : Sole system.threads LockThread.claims

namespace Guarded
variable {callers : ι → Caller} {system : LockSystem ι} {thread : ι}

section
variable (guarded : Guarded callers system)
include guarded

lemma idle_of_stale (stale : ¬system.world.NamesLive file)
    (named : system.world.Names file (callers other).pid) : system.threads other = .idle := by
  by_contra busy
  obtain ⟨holder,found,same⟩ := named
  exact stale ⟨holder,found,same ▸ (callers other).pid_pos,same ▸ (guarded.fits other).alive busy⟩

lemma unlocked_of_stale (stale : ¬system.world.NamesLive .lock) :
    (system.threads other).guarded = false ∧ (system.threads other).owns = false := by
  have bare : ¬((system.threads other).guarded = true ∨ (system.threads other).owns = true) := by
    intro needs
    rw [guarded.idle_of_stale stale ((guarded.fits other).lock needs)] at needs
    cases needs <;> contradiction
  simpa using bare

lemma unlocked (free : system.world.files .lock = none) :
    (system.threads other).guarded = false ∧ (system.threads other).owns = false :=
  guarded.unlocked_of_stale (by simp [LockWorld.NamesLive,free])

lemma unclaimed_of_stale (stale : ¬system.world.NamesLive .claim) : (system.threads other).claims = false := by
  by_contra held
  have idle := guarded.idle_of_stale stale ((guarded.fits other).claim (by simpa using held))
  exact held (idle ▸ rfl)

lemma crash (pid) : Guarded callers (system.crash callers pid) where
  fits other := by
    simp only [LockSystem.crash]
    split
    · exact Fits.idle
    · next apart =>
      have fits := guarded.fits other
      refine ⟨fun busy => ?_,fits.lock,fits.claim,fits.reread,fun same => ?_⟩
      · simpa [Function.update_of_ne apart] using fits.alive busy
      · rintro ⟨holder,found,named,running⟩
        refine fits.stale same ⟨holder,found,named,?_⟩
        by_cases dead : holder.pid = pid
        · simp [dead] at running
        · simpa [Function.update_of_ne dead] using running
  owner first second one two := by
    simp only [LockSystem.crash] at one two
    split at one <;> split at two <;> try contradiction
    exact guarded.owner first second one two
  claimant first second one two := by
    simp only [LockSystem.crash] at one two
    split at one <;> split at two <;> try contradiction
    exact guarded.claimant first second one two

lemma exclusive : system.Exclusive callers := by
  intro first second owned shared one two _ _
  obtain ⟨holder,found,same⟩ := (guarded.fits first).lock (by rw [one]; exact .inl rfl)
  obtain ⟨other,mem,named⟩ := (guarded.fits second).lock (by rw [two]; exact .inl rfl)
  rw [← same,← named,Option.mem_unique found mem]

end

variable [DecidableEq ι]

section
variable (guarded : Guarded callers system)
include guarded

variable (next : LockThread)

lemma move (own : Fits world (callers thread).pid next)
    (others : ∀ other, other ≠ thread → Fits world (callers other).pid (system.threads other))
    (owns : next.owns = true → (system.threads thread).owns = true ∨
      ∀ other, other ≠ thread → (system.threads other).owns = false)
    (claims : next.claims = true → (system.threads thread).claims = true ∨
      ∀ other, other ≠ thread → (system.threads other).claims = false) :
    Guarded callers (system.set thread next world) where
  fits other := by
    by_cases same : other = thread
    · subst same
      simpa [LockSystem.set] using own
    · simpa [LockSystem.set,same] using others other same
  owner := guarded.owner.update owns
  claimant := guarded.claimant.update claims

lemma reclaim (free : ∀ other, other ≠ thread → (system.threads other).claims = false)
    (own : Fits (system.world.put .claim content) (callers thread).pid next)
    (owns : next.owns = true → (system.threads thread).owns = true) :
    Guarded callers (system.set thread next (system.world.put .claim content)) :=
  guarded.move next own (fun other apart => (guarded.fits other).put_claim (free other apart))
    (fun held => .inl (owns held)) fun _ => .inr free

lemma stay (own : Fits system.world (callers thread).pid next)
    (owns : next.owns = true → (system.threads thread).owns = true)
    (claims : next.claims = true → (system.threads thread).claims = true) :
    Guarded callers (system.set thread next system.world) :=
  guarded.move next own (fun other _ => guarded.fits other) (fun held => .inl (owns held))
    fun held => .inl (claims held)

lemma link (free : system.world.files .lock = none) (alive : system.world.alive (callers thread).pid = true)
    (calm : next.takesOver = false) (others : ∀ other, other ≠ thread → (system.threads other).takesOver = false)
    (claims : next.claims = true → (system.threads thread).claims = true) :
    Guarded callers (system.set thread next (system.world.put .lock (some (callers thread).body))) := by
  refine guarded.move next ?_ (fun other apart => ?_) (fun _ => .inr fun _ _ => (guarded.unlocked free).2)
    fun held => .inl (claims held)
  · refine Fits.calm alive calm (fun _ => LockWorld.names_put rfl) (fun needs => ?_)
    obtain ⟨holder,found,same⟩ := (guarded.fits thread).claim (claims needs)
    exact ⟨holder,by simpa using found,same⟩
  · exact (guarded.fits other).put_lock (guarded.unlocked free).1
      (guarded.unlocked free).2 (.inl (others other apart))

lemma unlink
    (bare : ∀ other, other ≠ thread → (system.threads other).guarded = false ∧ (system.threads other).owns = false)
    (own : Fits (system.world.put .lock none) (callers thread).pid next) (owns : next.owns = false)
    (claims : next.claims = true → (system.threads thread).claims = true) :
    Guarded callers (system.set thread next (system.world.put .lock none)) := by
  refine guarded.move next own (fun other apart => ?_) (fun held => ?_) fun held => .inl (claims held)
  · exact (guarded.fits other).put_lock (bare other apart).1 (bare other apart).2 (.inr rfl)
  · simp [owns] at held

lemma plain (alive : system.world.alive (callers thread).pid = true) (bare : next.guarded = false)
    (apart : next.owns = false) (unclaimed : next.claims = false) :
    Guarded callers (system.set thread next system.world) := by
  refine guarded.stay next (Fits.calm alive (LockThread.takesOver_of_claims unclaimed) ?_ ?_) ?_ ?_ <;>
    simp [bare,apart,unclaimed]

end

attribute [simp] LockThread.claims LockThread.guarded LockThread.owns Stage.thread

section Calls
variable (guarded : Guarded callers system) (alive : system.world.alive (callers thread).pid = true)
include guarded alive

lemma publishing (calm : system.world.files .lock = none → ∀ other, (system.threads other).takesOver = false) :
    Guarded callers (system.advance callers thread choice .publishing) := by
  simp only [LockSystem.advance,Stage.step]
  obtain ⟨free,published⟩ | ⟨_ | e,published⟩ :=
    system.world.publish_cases <;> rw [published]
  · apply guarded.link _ free alive rfl (fun other _ => calm free other)
    simp
  · exact guarded.plain _ alive rfl rfl rfl
  · exact guarded.plain _ alive rfl rfl rfl

lemma examining : Guarded callers (system.advance callers thread choice .examining) := by
  simp only [LockSystem.advance,Stage.step]
  split
  · next same =>
    refine guarded.stay _ (Fits.calm alive rfl ?_ ?_) ?_ ?_
    · intro _
      exact LockWorld.names_of_read (callers thread).pid_pos same
    all_goals simp
  · exact guarded.plain _ alive rfl rfl rfl

lemma claiming (attempt : Nat) : Guarded callers (system.advance callers thread choice (.claiming attempt)) := by
  simp only [LockSystem.advance,Stage.step]
  obtain ⟨free,published⟩ | ⟨_ | e,published⟩ :=
    system.world.publish_cases <;> rw [published]
  · have stale : ¬system.world.NamesLive .claim := by simp [LockWorld.NamesLive,free]
    refine guarded.reclaim _ (fun other _ => guarded.unclaimed_of_stale stale)
      (Fits.calm alive rfl ?_ fun _ => LockWorld.names_put rfl) ?_ <;>
      simp
  · exact guarded.plain _ alive rfl rfl rfl
  · exact guarded.plain _ alive rfl rfl rfl

lemma clearing (stale : ¬system.world.NamesLive .claim) :
    Guarded callers (system.set thread (.calling (.claiming 1)) (system.world.put .claim none)) := by
  refine guarded.reclaim _ (fun other _ => guarded.unclaimed_of_stale stale) (Fits.calm alive rfl ?_ ?_) ?_ <;>
    simp

lemma rereading (here : system.threads thread = .calling .rereading) :
    Guarded callers (system.advance callers thread choice .rereading) := by
  have claim := (guarded.fits thread).claim (by rw [here]; rfl)
  simp only [LockSystem.advance,Stage.step]
  split
  · next same =>
    refine guarded.stay _ (Fits.calm alive rfl ?_ fun _ => claim) ?_ ?_
    · intro _
      exact LockWorld.names_of_read (callers thread).pid_pos same
    all_goals simp [here]
  · refine guarded.stay _ ⟨fun _ => alive,?_,fun _ => claim,?_,?_⟩ ?_ ?_
    · simp
    · intro holder same found mem
      cases same
      rw [LockWorld.read_of_mem mem]
    all_goals simp [here]

lemma reweighing (here : system.threads thread = .calling (.reweighing holder)) :
    Guarded callers (system.advance callers thread choice (.reweighing holder)) := by
  have own := guarded.fits thread
  rw [here] at own
  simp only [LockSystem.advance,Stage.step]
  split
  · refine guarded.stay _ (Fits.calm alive rfl ?_ fun _ => own.claim rfl) ?_ ?_ <;>
      simp [here]
  · next free =>
    refine guarded.stay _ ⟨fun _ => alive,?_,fun _ => own.claim rfl,?_,?_⟩ ?_ ?_
    · simp
    · simp
    · -- the file still names the holder that was found not to run
      rintro - ⟨found,mem,named,running⟩
      rw [own.reread holder rfl found mem] at named running
      exact free (by simp [Stage.held,named,running])
    all_goals simp [here]

lemma unlinking (here : system.threads thread = .calling .unlinking) :
    Guarded callers (system.set thread (.calling .republishing) (system.world.put .lock none)) := by
  have own := guarded.fits thread
  rw [here] at own
  refine guarded.unlink _ (fun other _ => guarded.unlocked_of_stale (own.stale rfl))
    (Fits.calm alive rfl ?_ ?_) rfl ?_
  · simp
  · intro _
    obtain ⟨holder,found,same⟩ := own.claim rfl
    exact ⟨holder,by simpa using found,same⟩
  · simp [here]

lemma republishing (here : system.threads thread = .calling .republishing) :
    Guarded callers (system.advance callers thread choice .republishing) := by
  have claims : (system.threads thread).claims = true := by rw [here]; rfl
  simp only [LockSystem.advance,Stage.step]
  obtain ⟨free,published⟩ | ⟨e,published⟩ :=
    system.world.publish_cases <;> rw [published]
  · exact guarded.link _ free alive rfl
      (fun other apart => LockThread.takesOver_of_claims (guarded.claimant.apart claims apart))
      (fun _ => claims)
  · refine guarded.stay _ (Fits.calm alive rfl ?_ fun _ => (guarded.fits thread).claim claims) ?_
      (fun _ => claims) <;> simp

lemma unclaiming (here : system.threads thread = .calling (.unclaiming outcome)) :
    Guarded callers (system.advance callers thread choice (.unclaiming outcome)) := by
  have claims : (system.threads thread).claims = true := by rw [here]; rfl
  have own := guarded.fits thread
  rw [here] at own
  have lock : ∀ pid, system.world.Names .lock pid → (system.world.put .claim none).Names .lock pid := by
    rintro pid ⟨holder,found,same⟩
    exact ⟨holder,by simpa using found,same⟩
  rcases outcome with e | (_ | ⟨⟨owned⟩⟩)
  · apply guarded.reclaim _ (fun other apart => guarded.claimant.apart claims apart) Fits.idle
    simp
  · refine guarded.reclaim _ (fun other apart => guarded.claimant.apart claims apart)
      (Fits.calm alive rfl (fun _ => lock _ (own.lock (.inr rfl))) ?_) ?_
    · simp [Stage.step]
    · simp [here,Stage.step]
  · refine guarded.reclaim _ (fun other apart => guarded.claimant.apart claims apart)
      (Fits.calm alive rfl (fun _ => lock _ (own.lock (.inl rfl))) ?_) ?_
    · simp [Stage.step]
    · cases owned <;> simp [here,Stage.step]

lemma returned (result) (here : system.threads thread = .calling (.returned result)) :
    Guarded callers (system.set thread (Stage.returned result).thread system.world) := by
  rcases result with e | ⟨⟨owned⟩⟩
  · exact guarded.stay _ Fits.idle (by simp) (by simp)
  · have lock := (guarded.fits thread).lock (by rw [here]; exact .inl rfl)
    refine guarded.stay _ (Fits.calm alive rfl (fun _ => lock) ?_) ?_ ?_ <;>
      cases owned <;> simp [here]

lemma verifying (here : system.threads thread = .calling .verifying) :
    Guarded callers (system.advance callers thread choice .verifying) := by
  have lock := (guarded.fits thread).lock (by rw [here]; exact .inr rfl)
  simp only [LockSystem.advance,Stage.step]
  split
  · refine guarded.stay _ (Fits.calm alive rfl (fun _ => lock) ?_) ?_ ?_ <;>
      simp [here]
  · exact guarded.plain _ alive rfl rfl rfl

lemma calls (here : system.threads thread = .calling stage)
    (orderly : system.Orderly callers (.step thread choice)) :
    Guarded callers (system.advance callers thread choice stage) := by
  rw [LockSystem.Orderly,here] at orderly
  cases stage with
  | creating =>
    simp only [LockSystem.advance,Stage.step]
    cases choice.error <;> exact guarded.plain _ alive rfl rfl rfl
  | publishing => exact guarded.publishing alive orderly
  | examining => exact guarded.examining alive
  | weighing holder =>
    simp only [LockSystem.advance,Stage.step]
    split <;> exact guarded.plain _ alive rfl rfl rfl
  | claiming attempt => exact guarded.claiming alive attempt
  | inspecting attempt =>
    simp only [LockSystem.advance,Stage.step]
    split <;> exact guarded.plain _ alive rfl rfl rfl
  | doubting holder =>
    simp only [LockSystem.advance,Stage.step]
    split <;> exact guarded.plain _ alive rfl rfl rfl
  | clearing => exact guarded.clearing alive orderly
  | rereading => exact guarded.rereading alive here
  | reweighing holder => exact guarded.reweighing alive here
  | unlinking => exact guarded.unlinking alive here
  | republishing => exact guarded.republishing alive here
  | unclaiming outcome => exact guarded.unclaiming alive here
  | verifying => exact guarded.verifying alive here
  | returned result => exact guarded.returned alive result here

end Calls

lemma releasing (guarded : Guarded callers system)
    (here : system.threads thread = .releasing)
    (last : ∀ other, other ≠ thread → (callers other).pid = (callers thread).pid →
      (system.threads other).guarded = false) :
    Guarded callers (system.set thread .idle (system.world.put .lock none)) := by
  have owns : (system.threads thread).owns = true := by rw [here]; rfl
  refine guarded.unlink _ (fun other apart => ?_) Fits.idle rfl ?_
  · refine ⟨?_,guarded.owner.apart owns apart⟩
    by_contra held
    obtain ⟨holder,found,named⟩ := (guarded.fits thread).lock (.inr owns)
    obtain ⟨same,mem,other_named⟩ := (guarded.fits other).lock (.inl (by simpa using held))
    have one : same = holder := Option.mem_unique mem found
    have process : (callers other).pid = (callers thread).pid := by rw [← other_named,one,named]
    exact held (last other apart process)
  · simp

lemma step (guarded : Guarded callers system) (event)
    (orderly : system.Orderly callers event) : Guarded callers (system.step callers event) := by
  cases event with
  | acquire thread =>
    simp only [LockSystem.step]
    split
    · split
      · next running => exact guarded.plain _ running rfl rfl rfl
      · exact guarded
    · exact guarded
  | step thread choice =>
    have alive (busy : system.threads thread ≠ .idle) := (guarded.fits thread).alive busy
    simp only [LockSystem.step]
    split
    · next stage here => exact guarded.calls (alive (by simp [here])) here orderly
    · next here =>
      rw [LockSystem.Orderly,here] at orderly
      exact guarded.releasing here orderly
    · exact guarded
  | drop thread =>
    have fits := guarded.fits thread
    simp only [LockSystem.step]
    split
    · next here =>
      rw [here] at fits
      refine guarded.stay _ (Fits.calm (fits.alive (by simp)) rfl (fun _ => fits.lock (.inl rfl)) ?_) ?_ ?_ <;>
        simp [here]
    · exact guarded.stay _ Fits.idle (by simp) (by simp)
    · exact guarded
  | crash pid => exact guarded.crash pid

end Guarded

namespace LockSystem
def start (world : LockWorld) : LockSystem ι := {world,threads := fun _ => .idle}

lemma start_guarded (world) : Guarded callers (start world) where
  fits _ := Fits.idle
  owner _ _ owns := by cases owns
  claimant _ _ claims := by cases claims

variable [DecidableEq ι]

theorem one_process_per_directory (callers : ι → Caller) (world : LockWorld) (events : List (LockEvent ι))
    (orderly : Steps.Meets (step callers) (Orderly callers) (start world) events) :
    (Steps.run (step callers) (start world) events).Exclusive callers :=
  Guarded.exclusive (Steps.run_invariant (step callers) (Orderly callers) (Guarded callers)
    (fun _ event guarded orderly => guarded.step event orderly) _ _ orderly
    (start_guarded world))

instance decidableOrderlyStep [Fintype ι] (callers : ι → Caller) (system : LockSystem ι) (thread held) :
    Decidable (system.OrderlyStep callers thread held) := by
  unfold OrderlyStep
  split <;> infer_instance

instance decidableOrderly [Fintype ι] (callers : ι → Caller) (system : LockSystem ι) (event) :
    Decidable (system.Orderly callers event) := by
  unfold Orderly
  split <;> infer_instance

namespace Sample

def process (pid : Nat) (running : pid ≠ 0) : Caller where
  pid := pid
  pid_pos := running
  dir := "statements"
  what := "the statement journal dir"
  role := "driver"
  port := 15002
  root := ".oxidant"
  describe := lockError ⟨".oxidant","driver",15002,"statements"⟩

def callers : Fin 4 → Caller
  | 0 | 1 => process 1 (by decide)
  | 2 => process 2 (by decide)
  | 3 => process 3 (by decide)

def emptyDirectory : LockSystem (Fin 4) := start {files := fun _ => none,alive := fun pid => pid < 9}

def steps (thread : Fin 4) (count : Nat) : List (LockEvent (Fin 4)) :=
  List.replicate count (.step thread {})

def takeover : List (LockEvent (Fin 4)) :=
  .acquire 0::steps 0 3 ++ .crash 1::.acquire 2::steps 2 11

theorem takeover_exclusive :
    Steps.Meets (step callers) (Orderly callers) emptyDirectory takeover ∧
    (Steps.run (step callers) emptyDirectory takeover).threads 2 = .holding true ∧
    (Steps.run (step callers) emptyDirectory takeover).Exclusive callers :=
  have orderly : Steps.Meets (step callers) (Orderly callers) emptyDirectory takeover := by decide
  ⟨orderly,rfl,one_process_per_directory callers _ takeover orderly⟩

def outlived : List (LockEvent (Fin 4)) :=
  .acquire 0::steps 0 3 ++ .acquire 1::steps 1 3 ++ .drop 0::steps 0 1 ++ .acquire 2::steps 2 3

theorem outlived_not_exclusive : ¬(Steps.run (step callers) emptyDirectory outlived).Exclusive callers :=
  fun exclusive => absurd (exclusive 1 2 false true rfl rfl rfl rfl) (by decide)

def overtaken : List (LockEvent (Fin 4)) :=
  .acquire 0::steps 0 3 ++ .acquire 2::steps 2 2 ++ .drop 0::steps 0 1 ++ steps 2 5 ++
    .acquire 3::steps 3 3 ++ steps 2 4

example : ¬(Steps.run (step callers) emptyDirectory overtaken).Exclusive callers :=
  fun exclusive => absurd (exclusive 2 3 true true rfl rfl rfl rfl) (by decide)

def abandonedClaim : LockSystem (Fin 4) :=
  start {files := fun _ => some {pid := 9},alive := fun pid => pid < 9}

def claimedTwice : List (LockEvent (Fin 4)) :=
  .acquire 2::steps 2 7 ++ .acquire 3::steps 3 7 ++ steps 2 4 ++ steps 3 4 ++ steps 2 4 ++ steps 3 4

example : ¬(Steps.run (step callers) abandonedClaim claimedTwice).Exclusive callers :=
  fun exclusive => absurd (exclusive 2 3 true true rfl rfl rfl rfl) (by decide)

end Sample
end LockSystem

/-- Whatever other processes do to the directory between its requests, a call of `acquire_in` is
followed by the stages and returns after at most sixteen requests. -/
theorem acquireIn_returns (me : Caller) (world : LockWorld) (turns : List Stage.Turn) (enough : 16 ≤ turns.length) :
    ∃ result after, Steps.run (Stage.turn me) (.creating,world) turns = (.returned result,after) ∧
      Steps.run Call.turn (acquireIn me (),world) turns = (.done (result,()),after) := by
  have ended := Stage.remaining_run me turns (.creating,world)
  have follows := Stage.rest_run me turns .creating world
  rcases at_ : Steps.run (Stage.turn me) (.creating,world) turns with ⟨stage,after⟩
  rw [at_] at ended follows
  cases stage with
  | returned result => exact ⟨result,after,rfl,follows.trans (by cases result <;> rfl)⟩
  | _ => grind [Stage.remaining]

open LockSystem.Sample in
theorem acquireIn_returns_alone :
    ∃ result after, Steps.run Call.turn (acquireIn (callers 0) (),emptyDirectory.world)
        (List.replicate 16 ({},id)) = (.done (result,()),after) := by
  obtain ⟨result,after,_,ends⟩ :=
    acquireIn_returns (callers 0) emptyDirectory.world (List.replicate 16 ({},id)) (by decide)
  exact ⟨result,after,ends⟩

end Oxidant.History
