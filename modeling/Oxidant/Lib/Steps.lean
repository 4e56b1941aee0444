import Mathlib.Tactic.Basic

/-! Systems that move under events from outside, and what holds in every state of the runs whose
events are all allowed where they are taken. -/
namespace Oxidant.Lib.Steps

variable {S E : Type} (step : S → E → S)

def run (state : S) (events : List E) : S := events.foldl step state

def Meets (allowed : S → E → Prop) : S → List E → Prop
  | _,[] => True
  | state,event::events => allowed state event ∧ Meets allowed (step state event) events

instance decidableMeets (allowed : S → E → Prop) [∀ state event, Decidable (allowed state event)] :
    ∀ state events, Decidable (Meets step allowed state events)
  | _,[] => .isTrue trivial
  | state,event::events =>
    have := decidableMeets allowed (step state event) events
    inferInstanceAs (Decidable (_ ∧ _))

lemma run_invariant (allowed : S → E → Prop) (kept : S → Prop)
    (steps : ∀ state event, kept state → allowed state event → kept (step state event))
    (state : S) (events : List E) (met : Meets step allowed state events) (holds : kept state) :
    kept (run step state events) := by
  induction events generalizing state with
  | nil => exact holds
  | cons event events ih => exact ih _ met.2 (steps state event holds met.1)

lemma run_simulation {T F : Type} (follow : T → F → T) (erase : E → List F) (related : S → T → Prop)
    (steps : ∀ state other event, related state other → allowed state event →
      related (step state event) (run follow other (erase event)))
    (state : S) (other : T) (events : List E) (met : Meets step allowed state events)
    (start : related state other) :
    related (run step state events) (run follow other (events.flatMap erase)) := by
  induction events generalizing state other with
  | nil => exact start
  | cons event events ih =>
    have moved := ih _ _ met.2 (steps state other event start met.1)
    unfold run at moved ⊢
    rwa [List.flatMap_cons,List.foldl_append]

end Oxidant.Lib.Steps
