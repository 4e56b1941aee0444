import Mathlib.Data.Set.List

/-! Request programs and their runs against a device that may fail or stop answering.
A program is a tree of requests. A device answers each request under a choice of the
environment, and a run that is out of choices is a process that died at that point,
with the world left as the requests made so far had left it. -/
namespace Oxidant.Lib

inductive Prog (Op : Type) (Ans : Op → Type) (α : Type) : Type where
  | done (value : α)
  | call (op : Op) (next : Ans op → Prog Op Ans α)

/-- How the world answers: under a choice of the environment, the answer to a request
and the world after it. -/
abbrev Device (Op : Type) (Ans : Op → Type) (C W : Type) := C → W → (op : Op) → Ans op × W

/-- No demand on where a program can die. -/
abbrev Anywhere {W : Type} (_ : W) : Prop := True

namespace Prog
variable {Op : Type} {Ans : Op → Type} {α β C W : Type}

def bind : Prog Op Ans α → (α → Prog Op Ans β) → Prog Op Ans β
  | done value,rest => rest value
  | call op next,rest => call op fun answer => bind (next answer) rest

variable (program : Prog Op Ans α)

lemma bind_assoc {γ : Type} (next : α → Prog Op Ans β) (last : β → Prog Op Ans γ) :
    (program.bind next).bind last = program.bind fun value => (next value).bind last := by
  induction program with
  | done value => rfl
  | call op rest ih => exact congrArg (call op) (funext fun answer => ih answer)

/-- One run. The choices are spent one for each request; `none` is a process that died. -/
def run (reply : Device Op Ans C W) : Prog Op Ans α → List C → W → Option α × W
  | done value,_,world => (some value,world)
  | call _ _,[],world => (none,world)
  | call op next,choice::choices,world =>
    run reply (next (reply choice world op).1) choices (reply choice world op).2

def advance (reply : Device Op Ans C W) (choice : C) : Prog Op Ans α → W → Prog Op Ans α × W
  | done value,world => (done value,world)
  | call op next,world => (next (reply choice world op).1,(reply choice world op).2)

lemma run_map {D : Type} (reply : Device Op Ans C W) (translate : D → C) (program : Prog Op Ans α)
    (choices : List D) (world : W) :
    program.run reply (choices.map translate) world =
      program.run (fun choice => reply (translate choice)) choices world := by
  induction program generalizing choices world with
  | done value => rfl
  | call op next ih =>
    cases choices with
    | nil => rfl
    | cons choice rest => exact ih _ _ _

def exec (reply : Device Op Ans C W) (choice : C) : Prog Op Ans α → W → α × W
  | done value,world => (value,world)
  | call op next,world => exec reply choice (next (reply choice world op).1) (reply choice world op).2

lemma exec_bind (reply : Device Op Ans C W) (choice : C) (program : Prog Op Ans α) (rest : α → Prog Op Ans β)
    (world : W) :
    (program.bind rest).exec reply choice world =
      (rest (program.exec reply choice world).1).exec reply choice (program.exec reply choice world).2 := by
  induction program generalizing world with
  | done value => rfl
  | call op next ih => exact ih _ _

/-- Whatever the environment chooses, the program returns only as `post` says, and `safe` holds
wherever it can die. -/
def Ensures (reply : Device Op Ans C W) (safe : W → Prop) : Prog Op Ans α → (α → W → Prop) → W → Prop
  | done value,post,world => post value world
  | call op next,post,world => safe world ∧
      ∀ choice, Ensures reply safe (next (reply choice world op).1) post (reply choice world op).2

variable {reply : Device Op Ans C W} {safe : W → Prop}

lemma run_ensures (world : W) (holds : program.Ensures reply safe post world) (choices : List C) :
    match program.run reply choices world with
    | (some value,final) => post value final
    | (none,final) => safe final := by
  induction program generalizing choices world with
  | done value => exact holds
  | call op next ih =>
    cases choices with
    | nil => exact holds.1
    | cons choice choices => exact ih _ _ (holds.2 choice) choices

lemma run_ensures_within {allowed : C → Prop}
    (holds : program.Ensures (fun choice : {choice // allowed choice} => reply choice.1) safe post world)
    (met : ∀ choice ∈ choices, allowed choice) :
    match program.run reply choices world with
    | (some value,final) => post value final
    | (none,final) => safe final := by
  lift choices to List {choice // allowed choice} using met
  rw [run_map]
  exact run_ensures program world holds choices

lemma exec_ensures (world : W) (holds : program.Ensures reply safe post world) (choice : C) :
    post (program.exec reply choice world).1 (program.exec reply choice world).2 := by
  induction program generalizing world with
  | done value => exact holds
  | call op next ih => exact ih _ _ (holds.2 choice)

lemma exec_keeps (holds : W → Prop)
    (kept : ∀ world op, holds world → holds (reply choice world op).2) (program : Prog Op Ans α)
    (world : W) (held : holds world) : holds (program.exec reply choice world).2 := by
  induction program generalizing world with
  | done value => exact held
  | call op next ih => exact ih _ _ (kept world op held)

lemma ensures_keeps (holds : W → Prop) (kept : ∀ choice world op, holds world → holds (reply choice world op).2)
    (program : Prog Op Ans α) (world : W) (held : holds world) :
    program.Ensures reply Anywhere (fun _ final => holds final) world := by
  induction program generalizing world with
  | done value => exact held
  | call op next ih => exact ⟨trivial,fun choice => ih _ _ (kept choice world op held)⟩

variable {first second : α → W → Prop}

lemma ensures_mono (world : W) (holds : program.Ensures reply safe first world)
    (weaker : ∀ value final, first value final → second value final) : program.Ensures reply safe second world := by
  induction program generalizing world with
  | done value => exact weaker _ _ holds
  | call op next ih => exact ⟨holds.1,fun choice => ih _ _ (holds.2 choice)⟩

lemma ensures_and (world : W) (one : program.Ensures reply safe first world)
    (other : program.Ensures reply safe second world) :
    program.Ensures reply safe (fun value final => first value final ∧ second value final) world := by
  induction program generalizing world with
  | done value => exact ⟨one,other⟩
  | call op next ih => exact ⟨one.1,fun choice => ih _ _ (one.2 choice) (other.2 choice)⟩

lemma ensures_bind (rest : α → Prog Op Ans β) (post : β → W → Prop) (world : W) :
    (program.bind rest).Ensures reply safe post world ↔
      program.Ensures reply safe (fun value => (rest value).Ensures reply safe post) world := by
  induction program generalizing world with
  | done value => exact Iff.rfl
  | call op next ih =>
    constructor
    · rintro ⟨now,later⟩
      exact ⟨now,fun choice => (ih _ _).mp (later choice)⟩
    · rintro ⟨now,later⟩
      exact ⟨now,fun choice => (ih _ _).mpr (later choice)⟩

end Prog

/-- A method of an object with state `σ` that can fail: the state it leaves behind is kept
also when it fails. -/
def Act (Op : Type) (Ans : Op → Type) (σ ε α : Type) := σ → Prog Op Ans (Except ε α × σ)

namespace Act
variable {Op : Type} {Ans : Op → Type} {σ ε α β : Type}

protected def pure (value : α) : Act Op Ans σ ε α := fun state => .done (.ok value,state)

protected def bind (first : Act Op Ans σ ε α) (rest : α → Act Op Ans σ ε β) : Act Op Ans σ ε β := fun state =>
  (first state).bind fun
    | (.ok value,after) => rest value after
    | (.error error,after) => .done (.error error,after)

instance : Monad (Act Op Ans σ ε) where
  pure := Act.pure
  bind := Act.bind

def fail (error : ε) : Act Op Ans σ ε α := fun state => .done (.error error,state)

def get : Act Op Ans σ ε σ := fun state => .done (.ok state,state)

def modify (change : σ → σ) : Act Op Ans σ ε Unit := fun state => .done (.ok (),change state)

def request (op : Op) : Act Op Ans σ ε (Ans op) := fun state => .call op fun answer => .done (.ok answer,state)

def attempt (method : Act Op Ans σ ε α) : Act Op Ans σ ε (Except ε α) := fun state =>
  (method state).bind fun (result,after) => .done (.ok result,after)

def raise : Except ε α → Act Op Ans σ ε α
  | .ok value => Act.pure value
  | .error error => fail error

def mapError {δ : Type} (name : ε → δ) (method : Act Op Ans σ ε α) : Act Op Ans σ δ α :=
  fun state => (method state).bind fun
    | (.ok value,after) => .done (.ok value,after)
    | (.error error,after) => .done (.error (name error),after)

def orDefault {δ : Type} (default : α) (method : Act Op Ans σ ε α) : Act Op Ans σ δ α :=
  fun state => (method state).bind fun (result,after) => .done (.ok (result.toOption.getD default),after)

def each {ι : Type} : List ι → (ι → Act Op Ans σ ε Unit) → Act Op Ans σ ε Unit
  | [],_ => pure ()
  | item::rest,body => do
    body item
    each rest body

def withRetry (retryable : ε → Bool) : Nat → Act Op Ans σ ε α → Act Op Ans σ ε α
  | 0,method => method
  | retries+1,method => do
    match ← attempt method with
    | .ok value => pure value
    | .error error => if retryable error then withRetry retryable retries method else fail error

variable {C W : Type}

def exec (reply : Device Op Ans C W) (choice : C) (method : Act Op Ans σ ε α) (state : σ)
    (world : W) : (Except ε α × σ) × W :=
  (method state).exec reply choice world

lemma exec_bind (reply : Device Op Ans C W) (choice : C) (first : Act Op Ans σ ε α) (rest : α → Act Op Ans σ ε β)
    (state : σ) (world : W) :
    (first >>= rest).exec reply choice state world = match first.exec reply choice state world with
      | ((.ok value,after),final) => (rest value).exec reply choice after final
      | ((.error error,after),final) => ((.error error,after),final) := by
  apply (Prog.exec_bind _ _ _ _ _).trans
  unfold exec
  rcases Prog.exec reply choice (first state) world with ⟨⟨_ | _,_⟩,_⟩ <;> rfl

lemma exec_get_bind (reply : Device Op Ans C W) (choice : C) (rest : σ → Act Op Ans σ ε α) (state : σ) (world : W) :
    (get >>= rest).exec reply choice state world = (rest state).exec reply choice state world := rfl

lemma exec_request_bind (reply : Device Op Ans C W) (choice : C) (op : Op)
    (rest : Ans op → Act Op Ans σ ε α) (state : σ) (world : W) :
    (request op >>= rest).exec reply choice state world =
      (rest (reply choice world op).1).exec reply choice state (reply choice world op).2 := rfl

lemma exec_mapError {δ : Type} (reply : Device Op Ans C W) (choice : C) (name : ε → δ)
    (method : Act Op Ans σ ε α) (state : σ) (world : W) :
    (mapError name method).exec reply choice state world =
      ((((method.exec reply choice state world).1.1).mapError name,
        (method.exec reply choice state world).1.2),(method.exec reply choice state world).2) := by
  apply (Prog.exec_bind _ _ _ _ _).trans
  unfold exec
  rcases Prog.exec reply choice (method state) world with ⟨⟨_ | _,_⟩,_⟩ <;> rfl

def Ensures (reply : Device Op Ans C W) (safe : W → Prop) (method : Act Op Ans σ ε α)
    (post : Except ε α → σ → W → Prop) (state : σ) (world : W) : Prop :=
  (method state).Ensures reply safe (fun result => post result.1 result.2) world

variable {reply : Device Op Ans C W} {safe : W → Prop} {post : Except ε α → σ → W → Prop} {state : σ} {world : W}

variable {first : Except ε α → σ → W → Prop} {method : Act Op Ans σ ε α}

lemma ensures_mono (holds : method.Ensures reply safe first state world)
    (weaker : ∀ result after final, first result after final → post result after final) :
    method.Ensures reply safe post state world :=
  Prog.ensures_mono _ _ holds fun result final => weaker result.1 result.2 final

lemma ensures_and {second : Except ε α → σ → W → Prop} {state : σ} {world : W}
    (one : method.Ensures reply safe first state world) (other : method.Ensures reply safe second state world) :
    method.Ensures reply safe (fun result after final => first result after final ∧ second result after final)
      state world :=
  Prog.ensures_and _ world one other

@[simp] lemma ensures_pure (value : α) :
    (pure value : Act Op Ans σ ε α).Ensures reply safe post state world ↔ post (.ok value) state world := Iff.rfl

lemma ensures_get_bind (rest : σ → Act Op Ans σ ε α) :
    (get >>= rest).Ensures reply safe post state world ↔ (rest state).Ensures reply safe post state world := Iff.rfl

@[simp] lemma ensures_modify (change : σ → σ) {post : Except ε Unit → σ → W → Prop} :
    (modify change : Act Op Ans σ ε Unit).Ensures reply safe post state world ↔
      post (.ok ()) (change state) world := Iff.rfl

@[simp] lemma ensures_request (op : Op) {post : Except ε (Ans op) → σ → W → Prop} :
    (request op : Act Op Ans σ ε (Ans op)).Ensures reply safe post state world ↔ safe world ∧ ∀ choice,
        post (.ok (reply choice world op).1) state (reply choice world op).2 := Iff.rfl

@[simp] lemma ensures_raise (result : Except ε α) :
    (raise result : Act Op Ans σ ε α).Ensures reply safe post state world ↔ post result state world := by
  cases result <;> exact Iff.rfl

lemma ensures_bind (first : Act Op Ans σ ε α) (rest : α → Act Op Ans σ ε β) {post : Except ε β → σ → W → Prop} :
    (first >>= rest).Ensures reply safe post state world ↔
      first.Ensures reply safe (fun result after final => match result with
        | .ok value => (rest value).Ensures reply safe post after final
        | .error error => post (.error error) after final) state world := by
  refine (Prog.ensures_bind _ _ _ _).trans (Iff.of_eq ?_)
  apply congrArg (fun post => Prog.Ensures reply safe (first state) post world)
  funext result final
  rcases result with ⟨_ | _,_⟩ <;> rfl

lemma ensures_then {first : Act Op Ans σ ε α} {rest : α → Act Op Ans σ ε β}
    {middle : Except ε α → σ → W → Prop} {post : Except ε β → σ → W → Prop}
    (holds : first.Ensures reply safe middle state world)
    (next : ∀ result after final, middle result after final → match result with
      | .ok value => (rest value).Ensures reply safe post after final
      | .error error => post (.error error) after final) :
    (first >>= rest).Ensures reply safe post state world :=
  (ensures_bind first rest).mpr (ensures_mono holds next)

lemma ensures_step {first : Act Op Ans σ ε α} {rest : α → Act Op Ans σ ε β}
    {middle : Except ε α → σ → W → Prop} {post : Except ε β → σ → W → Prop}
    (holds : first.Ensures reply safe middle state world)
    (failed : ∀ error after final, middle (.error error) after final → post (.error error) after final)
    (done : ∀ value after final, middle (.ok value) after final → (rest value).Ensures reply safe post after final) :
    (first >>= rest).Ensures reply safe post state world := by
  apply ensures_then holds
  rintro (error | value) after final held
  · exact failed error after final held
  · exact done value after final held

/-- What a method returns is what its last part does, whatever comes before it. -/
lemma ensures_last {first : Act Op Ans σ ε α} {rest : α → Act Op Ans σ ε β} {good : β → Prop}
    (last : ∀ value state world,
        (rest value).Ensures reply Anywhere (fun result _ _ => ∀ out, result = .ok out → good out) state world)
    (state : σ) (world : W) :
    (first >>= rest).Ensures reply Anywhere (fun result _ _ => ∀ out, result = .ok out → good out) state world := by
  have some_ : first.Ensures reply Anywhere (fun _ _ _ => True) state world :=
    Prog.ensures_keeps (fun _ => True) (fun _ _ _ _ => trivial) (first state) world trivial
  apply ensures_step some_
  · exact fun _ _ _ _ => nofun
  · exact fun value after final _ => last value after final

@[simp] lemma ensures_attempt (method : Act Op Ans σ ε α) {post : Except ε (Except ε α) → σ → W → Prop} :
    (attempt method).Ensures reply safe post state world ↔
      method.Ensures reply safe (fun result after final => post (.ok result) after final) state world := by
  refine (Prog.ensures_bind _ _ _ _).trans (Iff.of_eq ?_)
  rfl

@[simp] lemma ensures_mapError {δ : Type} (name : ε → δ) (method : Act Op Ans σ ε α)
    {post : Except δ α → σ → W → Prop} :
    (mapError name method).Ensures reply safe post state world ↔
      method.Ensures reply safe (fun result after final => post (result.mapError name) after final) state world := by
  refine (Prog.ensures_bind _ _ _ _).trans (Iff.of_eq ?_)
  apply congrArg (fun post => Prog.Ensures reply safe (method state) post world)
  funext result final
  rcases result with ⟨_ | _,_⟩ <;> rfl

@[simp] lemma ensures_orDefault {δ : Type} (default : α) (method : Act Op Ans σ ε α)
    {post : Except δ α → σ → W → Prop} :
    (orDefault default method).Ensures reply safe post state world ↔
    method.Ensures reply safe (fun result after final => post (.ok (result.toOption.getD default)) after final)
      state world := by
  refine (Prog.ensures_bind _ _ _ _).trans (Iff.of_eq ?_)
  rfl

lemma ensures_each {ι : Type} {body : ι → Act Op Ans σ ε Unit}
    {post : Except ε Unit → σ → W → Prop} (holds : List ι → σ → W → Prop)
    (once : ∀ item rest state world, holds (item::rest) state world →
      (body item).Ensures reply safe (fun result after final => match result with
        | .ok _ => holds rest after final
        | .error error => post (.error error) after final) state world)
    (last : ∀ state world, holds [] state world → post (.ok ()) state world)
    {items : List ι} {state : σ} {world : W} (start : holds items state world) :
    (each items body).Ensures reply safe post state world := by
  induction items generalizing state world with
  | nil => exact last _ _ start
  | cons item rest ih =>
    apply ensures_then (once item rest state world start)
    rintro (error | done) after final held
    · exact held
    · exact ih held

lemma ensures_withRetry (retryable : ε → Bool) (before : σ → W → Prop)
    (once : ∀ state world, before state world →
        method.Ensures reply safe (fun result after final =>
            post result after final ∧ (∀ error, result = .error error → before after final)) state world)
    (retries : Nat) (state : σ) (world : W) (holds : before state world) :
    (withRetry retryable retries method).Ensures reply safe post state world := by
  induction retries generalizing state world with
  | zero => exact ensures_mono (once _ _ holds) fun _ _ _ found => found.1
  | succ retries ih =>
    unfold withRetry
    rw [ensures_bind,ensures_attempt]
    apply ensures_mono (once _ _ holds)
    rintro (error | value) after final ⟨found,again⟩
    · dsimp only
      split
      · exact ih _ _ (again error rfl)
      · exact found
    · exact found

end Act
end Oxidant.Lib
