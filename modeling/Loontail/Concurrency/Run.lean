import Mathlib.Data.Option.Basic

/-! # Runs of a partial step function

A step function says which state a choice leads to, if the choice can be made.
A run makes a list of choices one after another. -/

namespace Concurrency

variable {State Choice : Type}

def run (step : State → Choice → Option State) :
    State → List Choice → Option State
  | state, [] => some state
  | state, choice :: choices =>
      (step state choice).bind fun next => run step next choices

/-- Every choice of the list is made in a state in which `condition` allows it. -/
def Along (step : State → Choice → Option State)
    (condition : State → Choice → Prop) : State → List Choice → Prop
  | _, [] => True
  | state, choice :: choices => condition state choice ∧
      ∀ next, step state choice = some next → Along step condition next choices

variable {step : State → Choice → Option State}

instance Along.decidable {condition : State → Choice → Prop}
    [∀ state choice, Decidable (condition state choice)] :
    (state : State) → (choices : List Choice) →
      Decidable (Along step condition state choices)
  | _, [] => .isTrue trivial
  | state, choice :: choices =>
      match stepped : step state choice with
      | none => decidable_of_iff (condition state choice) (by simp [Along, stepped])
      | some next =>
          have : Decidable (Along step condition next choices) := decidable next choices
          decidable_of_iff (condition state choice ∧ Along step condition next choices)
            (by simp [Along, stepped])

theorem run_append (state : State) (first second : List Choice) :
    run step state (first ++ second) =
      (run step state first).bind fun middle => run step middle second := by
  induction first generalizing state with
  | nil => rfl
  | cons choice rest induction =>
      simp only [List.cons_append, run, Option.bind_assoc, induction]

theorem Along.mono {weak strong : State → Choice → Prop}
    (implies : ∀ state choice, strong state choice → weak state choice)
    {state : State} {choices : List Choice}
    (along : Along step strong state choices) : Along step weak state choices := by
  induction choices generalizing state with
  | nil => trivial
  | cons choice rest induction =>
      exact ⟨implies state choice along.1,
        fun next stepped => induction (along.2 next stepped)⟩

theorem Along.and {first second : State → Choice → Prop} {state : State}
    {choices : List Choice} (left : Along step first state choices)
    (right : Along step second state choices) :
    Along step (fun state choice => first state choice ∧ second state choice) state choices := by
  induction choices generalizing state with
  | nil => trivial
  | cons choice rest induction =>
      exact ⟨⟨left.1, right.1⟩, fun next stepped =>
        induction (left.2 next stepped) (right.2 next stepped)⟩

theorem Along.of_forall {condition : Choice → Prop} {state : State} {choices : List Choice}
    (all : ∀ choice ∈ choices, condition choice) :
    Along step (fun _ choice => condition choice) state choices := by
  induction choices generalizing state with
  | nil => trivial
  | cons choice rest induction =>
      exact ⟨all choice (by simp), fun next _ =>
        induction fun other member => all other (by simp [member])⟩

theorem invariant_along (Inv : State → Prop) {condition : State → Choice → Prop}
    (preserved : ∀ state choice next, Inv state → condition state choice →
      step state choice = some next → Inv next)
    {state final : State} {choices : List Choice} (holds : Inv state)
    (along : Along step condition state choices)
    (reached : run step state choices = some final) : Inv final := by
  induction choices generalizing state with
  | nil => exact Option.some.inj reached ▸ holds
  | cons choice rest induction =>
      rcases Option.bind_eq_some_iff.mp reached with ⟨next, stepped, continued⟩
      exact induction (preserved state choice next holds along.1 stepped)
        (along.2 next stepped) continued

theorem invariant (Inv : State → Prop)
    (preserved : ∀ state choice next, Inv state →
      step state choice = some next → Inv next)
    {state final : State} {choices : List Choice} (holds : Inv state)
    (reached : run step state choices = some final) : Inv final := by
  induction choices generalizing state with
  | nil => exact Option.some.inj reached ▸ holds
  | cons choice rest induction =>
      rcases Option.bind_eq_some_iff.mp reached with ⟨next, stepped, continued⟩
      exact induction (preserved state choice next holds stepped) continued

end Concurrency
