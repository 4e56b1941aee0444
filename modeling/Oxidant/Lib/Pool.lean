import Oxidant.Lib.Prog

/-! Objects that share one world and whose requests are taken in any order: a schedule picks the
object that makes its next request. What an object does under such a schedule is shown by rely
and guarantee: between two of its requests the world moves as the others guarantee, and each of
its own requests moves the world as the others rely on. -/
namespace Oxidant.Lib

/-- What a process may expect between two of its requests, and what it owes the others. Requests
that `admits` refuses are not made. -/
structure Discipline (Op W : Type) where
  inv : W → Prop
  admits : W → Op → Prop
  rely : W → W → Prop
  guar : W → W → Prop

namespace Prog
variable {Op : Type} {Ans : Op → Type} {α β C W : Type}

def Keeps (reply : Device Op Ans C W) (rules : Discipline Op W) : Prog Op Ans α → (α → W → Prop) → W → Prop
  | done value,post,world => post value world
  | call op next,post,world =>
    ∀ now, rules.rely world now → rules.inv now → rules.admits now op → ∀ choice,
      rules.inv (reply choice now op).2 ∧ rules.guar now (reply choice now op).2 ∧
        Keeps reply rules (next (reply choice now op).1) post (reply choice now op).2

variable {reply : Device Op Ans C W} {rules : Discipline Op W}

lemma keeps_mono (program : Prog Op Ans α) (world : W) (holds : program.Keeps reply rules first world)
    (weaker : ∀ value final, first value final → second value final) :
    program.Keeps reply rules second world := by
  induction program generalizing world with
  | done value => exact weaker _ _ holds
  | call op next ih =>
    intro now moved safe admitted choice
    obtain ⟨kept,owed,rest⟩ := holds now moved safe admitted choice
    exact ⟨kept,owed,ih _ _ rest⟩

lemma keeps_bind (program : Prog Op Ans α) (rest : α → Prog Op Ans β) (post : β → W → Prop) (world : W)
    (holds : program.Keeps reply rules (fun value => (rest value).Keeps reply rules post) world) :
    (program.bind rest).Keeps reply rules post world := by
  induction program generalizing world with
  | done value => exact holds
  | call op next ih =>
    intro now moved safe admitted choice
    obtain ⟨kept,owed,later⟩ := holds now moved safe admitted choice
    exact ⟨kept,owed,ih _ _ later⟩

end Prog

namespace Act
variable {Op : Type} {Ans : Op → Type} {C W σ ε α β : Type}

def Keeps (reply : Device Op Ans C W) (rules : Discipline Op W) (method : Act Op Ans σ ε α)
    (post : Except ε α → σ → W → Prop) (state : σ) (world : W) : Prop :=
  (method state).Keeps reply rules (fun result => post result.1 result.2) world

variable {reply : Device Op Ans C W} {rules : Discipline Op W} {state : σ} {world : W}

lemma keeps_mono {method : Act Op Ans σ ε α} (holds : method.Keeps reply rules first state world)
    (weaker : ∀ result after final, first result after final → second result after final) :
    method.Keeps reply rules second state world :=
  Prog.keeps_mono _ _ holds fun result final => weaker result.1 result.2 final

lemma keeps_request {post : Except ε (Ans op) → σ → W → Prop}
    (answered : ∀ now, rules.rely world now → rules.inv now → rules.admits now op → ∀ choice,
      rules.inv (reply choice now op).2 ∧ rules.guar now (reply choice now op).2 ∧
        post (.ok (reply choice now op).1) state (reply choice now op).2) :
    (request op : Act Op Ans σ ε (Ans op)).Keeps reply rules post state world :=
  answered

lemma keeps_bind (first : Act Op Ans σ ε α) (rest : α → Act Op Ans σ ε β)
    (holds : first.Keeps reply rules (fun result after final => match result with
      | .ok value => (rest value).Keeps reply rules post after final
      | .error error => post (.error error) after final) state world) :
    (first >>= rest).Keeps reply rules post state world := by
  refine Prog.keeps_bind _ _ _ _ (Prog.keeps_mono _ _ holds ?_)
  rintro ⟨_ | _,_⟩ final found <;> exact found

lemma keeps_get_bind (holds : (rest state).Keeps reply rules post state world) :
    (get >>= rest).Keeps reply rules post state world :=
  holds

lemma keeps_modify_bind (holds : (rest ()).Keeps reply rules post (change state) world) :
    (modify change >>= rest).Keeps reply rules post state world :=
  holds

lemma keeps_raise_bind (rest : α → Act Op Ans σ ε β)
    (ok : ∀ value, result = .ok value → (rest value).Keeps reply rules post state world)
    (failed : ∀ error, result = .error error → post (.error error) state world) :
    (raise result >>= rest).Keeps reply rules post state world := by
  cases result with
  | ok value => exact ok value rfl
  | error error => exact failed error rfl

lemma keeps_attempt (holds : method.Keeps reply rules (fun result => post (.ok result)) state world) :
    (attempt method).Keeps reply rules post state world :=
  Prog.keeps_bind _ _ _ _ holds

end Act

section Pools
variable {ι Op : Type} {Ans : Op → Type} {C W κ σ ε ρ : Type}

/-- The body of each call, how the world answers an object in a call, and the state an object is
created in. -/
structure Service (ι Op : Type) (Ans : Op → Type) (C W κ σ ε ρ : Type) where
  body : κ → Act Op Ans σ ε ρ
  device : ι → κ → Device Op Ans C W
  fresh : σ

inductive Member (Op : Type) (Ans : Op → Type) (κ σ ε ρ : Type) where
  | idle (state : σ)
  | busy (call : κ) (began : σ) (rest : Prog Op Ans (Except ε ρ × σ))

def Member.next : Member Op Ans κ σ ε ρ → Option Op
  | .busy _ _ (.call op _) => some op
  | _ => none

def Member.resting (call : κ) (began : σ) : Prog Op Ans (Except ε ρ × σ) → Member Op Ans κ σ ε ρ
  | .done (_,state) => .idle state
  | .call op next => .busy call began (.call op next)

structure Pool (ι Op : Type) (Ans : Op → Type) (W κ σ ε ρ : Type) where
  world : W
  members : ι → Member Op Ans κ σ ε ρ
  returned : List (ι × κ × Except ε ρ) := []

/-- Begin a call of an idle member, let a member make its next request, or let its process die. -/
inductive Event (ι C κ : Type) where
  | call (member : ι) (call : κ)
  | step (member : ι) (choice : C)
  | crash (member : ι)

namespace Pool

/-- The next request of a member that takes a step is one that `admits` allows. -/
def Requests (admits : W → Op → Prop) (pool : Pool ι Op Ans W κ σ ε ρ) : Event ι C κ → Prop
  | .step member _ => ∀ op ∈ (pool.members member).next, admits pool.world op
  | _ => True

instance decidableRequests (admits : W → Op → Prop) [∀ world op, Decidable (admits world op)]
    (pool : Pool ι Op Ans W κ σ ε ρ) : ∀ event : Event ι C κ, Decidable (pool.Requests admits event)
  | .step member _ => inferInstanceAs (Decidable (∀ op ∈ (pool.members member).next, admits pool.world op))
  | .call _ _ | .crash _ => .isTrue trivial

variable [DecidableEq ι]

def set (pool : Pool ι Op Ans W κ σ ε ρ) (member : ι) (next : Member Op Ans κ σ ε ρ) : Pool ι Op Ans W κ σ ε ρ :=
  {pool with members := fun other => if other = member then next else pool.members other}

def settle (pool : Pool ι Op Ans W κ σ ε ρ) (member : ι) (call : κ) (began : σ) :
    Prog Op Ans (Except ε ρ × σ) → Pool ι Op Ans W κ σ ε ρ
  | .done (result,state) =>
    {pool.set member (.idle state) with returned := pool.returned ++ [(member,call,result)]}
  | .call op next => pool.set member (.busy call began (.call op next))

lemma settle_members (pool : Pool ι Op Ans W κ σ ε ρ) (member other : ι) (call : κ) (began : σ)
    (rest : Prog Op Ans (Except ε ρ × σ)) :
    (pool.settle member call began rest).members other =
      if other = member then .resting call began rest else pool.members other := by
  cases rest <;> rfl

lemma settle_world (pool : Pool ι Op Ans W κ σ ε ρ) (member : ι) (call : κ) (began : σ)
    (rest : Prog Op Ans (Except ε ρ × σ)) :
    (pool.settle member call began rest).world = pool.world := by
  cases rest <;> rfl

variable (service : Service ι Op Ans C W κ σ ε ρ)

def step (pool : Pool ι Op Ans W κ σ ε ρ) : Event ι C κ → Pool ι Op Ans W κ σ ε ρ
  | .call member call => match pool.members member with
    | .idle state => pool.settle member call state (service.body call state)
    | .busy _ _ _ => pool
  | .step member choice => match pool.members member with
    | .busy call began (.call op next) =>
      let out := service.device member call choice pool.world op
      {pool with world := out.2}.settle member call began (next out.1)
    | _ => pool
  | .crash member => pool.set member (.idle service.fresh)

def run (pool : Pool ι Op Ans W κ σ ε ρ) (events : List (Event ι C κ)) : Pool ι Op Ans W κ σ ε ρ :=
  events.foldl (step service) pool

def Meets (allowed : Pool ι Op Ans W κ σ ε ρ → Event ι C κ → Prop) :
    Pool ι Op Ans W κ σ ε ρ → List (Event ι C κ) → Prop
  | _,[] => True
  | pool,event::events => allowed pool event ∧ Meets allowed (pool.step service event) events

instance decidableMeets (allowed : Pool ι Op Ans W κ σ ε ρ → Event ι C κ → Prop)
    [∀ pool event, Decidable (allowed pool event)] :
    ∀ pool events, Decidable (Meets service allowed pool events)
  | _,[] => .isTrue trivial
  | pool,event::events =>
    have := decidableMeets allowed (pool.step service event) events
    inferInstanceAs (Decidable (_ ∧ _))

lemma run_invariant (allowed : Pool ι Op Ans W κ σ ε ρ → Event ι C κ → Prop) (kept : Pool ι Op Ans W κ σ ε ρ → Prop)
    (steps : ∀ pool event, kept pool → allowed pool event → kept (pool.step service event))
    (pool : Pool ι Op Ans W κ σ ε ρ) (events : List (Event ι C κ))
    (met : Meets service allowed pool events) (holds : kept pool) :
    kept (pool.run service events) := by
  induction events generalizing pool with
  | nil => exact holds
  | cons event events ih => exact ih _ met.2 (steps pool event holds met.1)

end Pool

/-- A world invariant with what each member relies on and guarantees, at rest and in what its calls
returned. -/
structure Contract (service : Service ι Op Ans C W κ σ ε ρ) where
  inv : W → Prop
  admits : W → Op → Prop
  rely : ι → W → W → Prop
  guar : ι → W → W → Prop
  rest : ι → σ → W → Prop
  gives : ι → κ → Except ε ρ → W → Prop
  rely_refl : ∀ member world, rely member world world
  rely_trans : ∀ member {first second third}, rely member first second →
    rely member second third → rely member first third
  others : ∀ {member other before after}, member ≠ other → inv after →
    guar other before after → rely member before after
  rest_fresh : ∀ member world, inv world → rest member service.fresh world
  rest_stable : ∀ member state {before after}, rest member state before →
    rely member before after → rest member state after
  gives_stable : ∀ member call result other {before after}, gives member call result before →
    guar other before after → gives member call result after
  calls : ∀ member call state world, inv world → rest member state world →
    (service.body call).Keeps (service.device member call)
      ⟨inv,admits,rely member,guar member⟩
      (fun result after final => rest member after final ∧ gives member call result final)
      state world

namespace Contract
variable {service : Service ι Op Ans C W κ σ ε ρ} (contract : Contract service)

abbrev rules (member : ι) : Discipline Op W :=
  ⟨contract.inv,contract.admits,contract.rely member,contract.guar member⟩

def Continues (member : ι) (call : κ) (rest : Prog Op Ans (Except ε ρ × σ)) (world : W) : Prop :=
  rest.Keeps (service.device member call) (contract.rules member)
    (fun out final => contract.rest member out.2 final ∧ contract.gives member call out.1 final)
    world

def MemberHolds (member : ι) (world : W) : Member Op Ans κ σ ε ρ → Prop
  | .idle state => contract.rest member state world
  | .busy call _ (.call op next) => contract.Continues member call (.call op next) world
  | .busy _ _ (.done _) => False

structure Holds (pool : Pool ι Op Ans W κ σ ε ρ) : Prop where
  inv : contract.inv pool.world
  members : ∀ member, contract.MemberHolds member pool.world (pool.members member)
  returned : ∀ entry ∈ pool.returned, contract.gives entry.1 entry.2.1 entry.2.2 pool.world

variable {contract}

lemma MemberHolds.stable (holds : contract.MemberHolds member before held)
    (moved : contract.rely member before after) : contract.MemberHolds member after held := by
  cases held with
  | idle state => exact contract.rest_stable member state holds moved
  | busy call began rest =>
    cases rest with
    | done out => exact holds
    | call op next =>
      intro now later safe admitted choice
      exact holds now (contract.rely_trans member moved later) safe admitted choice

variable [DecidableEq ι]

lemma Holds.settle {pool : Pool ι Op Ans W κ σ ε ρ}
    {rest : Prog Op Ans (Except ε ρ × σ)} (inv : contract.inv pool.world)
    (others : ∀ other, other ≠ member → contract.MemberHolds other pool.world (pool.members other))
    (returned : ∀ entry ∈ pool.returned, contract.gives entry.1 entry.2.1 entry.2.2 pool.world)
    (continues : contract.Continues member call rest pool.world) :
    contract.Holds (pool.settle member call began rest) := by
  cases rest with
  | done out =>
    obtain ⟨result,state⟩ := out
    refine ⟨inv,fun other => ?_,fun entry found => ?_⟩
    · simp only [Pool.settle,Pool.set]
      split
      · next same => exact same ▸ continues.1
      · next apart => exact others other apart
    · rcases List.mem_append.mp found with before | now
      · exact returned entry before
      · cases List.mem_singleton.mp now
        exact continues.2
  | call op next =>
    refine ⟨inv,fun other => ?_,returned⟩
    simp only [Pool.settle,Pool.set]
    split
    · next same => exact same ▸ continues
    · next apart => exact others other apart

lemma Holds.step {pool : Pool ι Op Ans W κ σ ε ρ} (holds : contract.Holds pool)
    (event : Event ι C κ) (admitted : pool.Requests contract.admits event) :
    contract.Holds (pool.step service event) := by
  cases event with
  | call member call =>
    simp only [Pool.step]
    cases found : pool.members member with
    | busy _ _ _ => exact holds
    | idle state =>
      have resting := holds.members member
      rw [found] at resting
      exact Holds.settle holds.inv (fun other _ => holds.members other) holds.returned
        (contract.calls member call state pool.world holds.inv resting)
  | step member choice =>
    simp only [Pool.step]
    have current := holds.members member
    cases found : pool.members member with
    | idle state => exact holds
    | busy call began rest =>
      rw [found] at current
      cases rest with
      | done out => exact current.elim
      | call op next =>
        have allowed := admitted op (by rw [found]; rfl)
        obtain ⟨inv,owed,continues⟩ :=
          current pool.world (contract.rely_refl _ _) holds.inv allowed choice
        refine Holds.settle inv (fun other apart => ?_) (fun entry member => ?_) continues
        · exact (holds.members other).stable (contract.others apart inv owed)
        · exact contract.gives_stable _ _ _ _ (holds.returned entry member) owed
  | crash member =>
    refine ⟨holds.inv,fun other => ?_,holds.returned⟩
    simp only [Pool.step,Pool.set]
    split
    · exact contract.rest_fresh other pool.world holds.inv
    · exact holds.members other

lemma Holds.run (holds : contract.Holds pool)
    (events : List (Event ι C κ)) (met : pool.Meets service (Pool.Requests contract.admits) events) :
    contract.Holds (pool.run service events) :=
  Pool.run_invariant service (Pool.Requests contract.admits) contract.Holds
    (fun _ event kept admitted => kept.step event admitted) pool events met holds

end Contract
end Pools
end Oxidant.Lib
