import Oxidant.Lib.Prog

/-! Programs whose requests a monitor follows. The monitor sees every request with its answer,
whatever the world is, and allows or refuses the next one. -/
namespace Oxidant.Lib

structure Monitor (Op : Type) (Ans : Op → Type) (S : Type) where
  allows : S → Op → Prop
  next : S → (op : Op) → Ans op → S

namespace Prog
variable {Op : Type} {Ans : Op → Type} {S α β : Type}

def Obeys (monitor : Monitor Op Ans S) : Prog Op Ans α → (α → S → Prop) → S → Prop
  | done value,post,seen => post value seen
  | call op next,post,seen =>
    monitor.allows seen op ∧ ∀ answer, Obeys monitor (next answer) post (monitor.next seen op answer)

variable {monitor : Monitor Op Ans S}

lemma obeys_mono (program : Prog Op Ans α) (seen : S) (holds : program.Obeys monitor first seen)
    (weaker : ∀ value final, first value final → second value final) :
    program.Obeys monitor second seen := by
  induction program generalizing seen with
  | done value => exact weaker _ _ holds
  | call op next ih => exact ⟨holds.1,fun answer => ih _ _ (holds.2 answer)⟩

lemma obeys_bind (program : Prog Op Ans α) (rest : α → Prog Op Ans β) (post : β → S → Prop)
    (seen : S) (holds : program.Obeys monitor (fun value => (rest value).Obeys monitor post) seen) :
    (program.bind rest).Obeys monitor post seen := by
  induction program generalizing seen with
  | done value => exact holds
  | call op next ih => exact ⟨holds.1,fun answer => ih _ _ (holds.2 answer)⟩

end Prog

namespace Act
variable {Op : Type} {Ans : Op → Type} {S σ ε α β : Type}

def Obeys (monitor : Monitor Op Ans S) (method : Act Op Ans σ ε α)
    (post : Except ε α → σ → S → Prop) (state : σ) (seen : S) : Prop :=
  (method state).Obeys monitor (fun result => post result.1 result.2) seen

variable {monitor : Monitor Op Ans S} {state : σ} {seen : S}

lemma obeys_mono {method : Act Op Ans σ ε α} (holds : method.Obeys monitor first state seen)
    (weaker : ∀ result after final, first result after final → second result after final) :
    method.Obeys monitor second state seen :=
  Prog.obeys_mono _ _ holds fun result final => weaker result.1 result.2 final

lemma obeys_bind (first : Act Op Ans σ ε α) (rest : α → Act Op Ans σ ε β)
    (holds : first.Obeys monitor (fun result after final => match result with
      | .ok value => (rest value).Obeys monitor post after final
      | .error error => post (.error error) after final) state seen) :
    (first >>= rest).Obeys monitor post state seen := by
  refine Prog.obeys_bind _ _ _ _ (Prog.obeys_mono _ _ holds ?_)
  rintro ⟨_ | _,_⟩ final found <;> exact found

lemma obeys_get_bind (holds : (rest state).Obeys monitor post state seen) :
    (get >>= rest).Obeys monitor post state seen :=
  holds

lemma obeys_request_bind (rest : Ans op → Act Op Ans σ ε α) (allowed : monitor.allows seen op)
    (answered : ∀ answer, (rest answer).Obeys monitor post state (monitor.next seen op answer)) :
    (request op >>= rest).Obeys monitor post state seen :=
  ⟨allowed,answered⟩

lemma obeys_raise_bind (rest : α → Act Op Ans σ ε β)
    (ok : ∀ value, result = .ok value → (rest value).Obeys monitor post state seen)
    (failed : ∀ error, result = .error error → post (.error error) state seen) :
    (raise result >>= rest).Obeys monitor post state seen := by
  cases result with
  | ok value => exact ok value rfl
  | error error => exact failed error rfl

def Silent (monitor : Monitor Op Ans S) (method : Act Op Ans σ ε α) : Prop :=
  ∀ state seen, method.Obeys monitor (fun _ _ final => final = seen) state seen

lemma silent_pure : Silent monitor (pure value : Act Op Ans σ ε α) :=
  fun _ _ => rfl

lemma silent_fail : Silent monitor (fail error : Act Op Ans σ ε α) :=
  fun _ _ => rfl

lemma silent_get : Silent monitor (get : Act Op Ans σ ε σ) :=
  fun _ _ => rfl

lemma silent_modify : Silent monitor (modify change : Act Op Ans σ ε Unit) :=
  fun _ _ => rfl

lemma silent_raise : Silent monitor (raise result : Act Op Ans σ ε α) := by cases result <;> exact fun _ _ => rfl

lemma silent_request (unnoticed : ∀ seen, monitor.allows seen op ∧ ∀ answer, monitor.next seen op answer = seen) :
    Silent monitor (request op : Act Op Ans σ ε (Ans op)) :=
  fun _ seen => unnoticed seen

lemma Silent.bind {first : Act Op Ans σ ε α}
    (silent : Silent monitor first) (later : ∀ value, Silent monitor (rest value)) :
    Silent monitor (first >>= rest) := by
  intro state seen
  refine Act.obeys_bind _ _ (obeys_mono (silent state seen) ?_)
  rintro (error | value) after final rfl
  · rfl
  · exact later value after final

lemma Silent.obeys_bind {first : Act Op Ans σ ε α}
    {post : Except ε β → σ → S → Prop} (silent : Silent monitor first)
    (ok : ∀ value after, (rest value).Obeys monitor post after seen)
    (failed : ∀ error after, post (.error error) after seen) :
    (first >>= rest).Obeys monitor post state seen := by
  refine Act.obeys_bind _ _ (obeys_mono (silent state seen) ?_)
  rintro (error | value) after final rfl
  · exact failed error after
  · exact ok value after

lemma Silent.attempt (silent : Silent monitor method) : Silent monitor (attempt method) :=
  fun state seen => Prog.obeys_bind _ _ _ _ (silent state seen)

end Act
end Oxidant.Lib
