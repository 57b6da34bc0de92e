import Loontail.Concurrency.Fallible
import Loontail.Concurrency.Turn

/-! # Processes that run by themselves

Where nothing comes between the operations of a process and none fails, its outcome
and the state that it leaves are functions of the state it starts in. -/

namespace Concurrency

variable {interface : Interface} {Outcome Value Error : Type}

namespace Process

def evaluate : Process interface Outcome → interface.State → Outcome × interface.State
  | .done outcome, state => (outcome, state)
  | .call operation next, state =>
      (next (interface.perform state operation).1).evaluate (interface.perform state operation).2

theorem evaluate_of_execute {process : Process interface Outcome} {index : Nat}
    {state after : interface.State} {history later : List (Event interface)} {outcome : Outcome}
    (executed : process.execute index [] state history = some (outcome, after, later)) :
    process.evaluate state = (outcome, after) := by
  induction process generalizing state history with
  | done value =>
      simp only [execute, Option.some.injEq, Prod.mk.injEq] at executed
      rcases executed with ⟨rfl, rfl, -⟩
      rfl
  | call operation next induction =>
      rcases Option.bind_eq_some_iff.mp executed with ⟨⟨result, middle⟩, happened, continued⟩
      simp only [List.headD_nil, Bool.false_eq_true, if_false] at happened
      split at happened
      · have performed := Option.some.inj happened
        rw [evaluate, performed]
        exact induction result continued
      · cases happened

theorem exists_execute (ready : ∀ state operation, interface.ready state operation = true)
    (process : Process interface Outcome) (index : Nat) (state : interface.State)
    (history : List (Event interface)) :
    ∃ later, process.execute index [] state history =
      some ((process.evaluate state).1, (process.evaluate state).2, later) := by
  induction process generalizing state history with
  | done outcome => exact ⟨history, rfl⟩
  | call operation next induction =>
      obtain ⟨later, executed⟩ := induction (interface.perform state operation).1
        (interface.perform state operation).2 (⟨index, state, operation, _, _⟩ :: history)
      refine ⟨later, ?_⟩
      simp only [execute, List.headD_nil, Bool.false_eq_true, if_false, ready, if_true,
        Option.bind_some]
      exact executed

end Process

@[reducible] def Logic.alone (interface : Interface) : Logic interface where
  Situation := interface.State
  admits := fun state operation post =>
    post (interface.perform state operation).1 (interface.perform state operation).2
  mono := fun implies admitted => implies _ _ admitted

namespace Process

theorem meets_alone {post : Outcome → interface.State → Prop}
    {process : Process interface Outcome} {state : interface.State} :
    process.Meets (.alone interface) post state ↔
      post (process.evaluate state).1 (process.evaluate state).2 := by
  induction process generalizing state with
  | done outcome => rfl
  | call operation next induction => exact induction _

theorem Meets.alone_of_everyWay
    (ready : ∀ state operation, interface.ready state operation = true)
    {post : Outcome → interface.State → Prop} {process : Process interface Outcome}
    {state : interface.State} (meets : process.Meets (.everyWay interface) post state) :
    process.Meets (.alone interface) post state := by
  induction process generalizing state with
  | done outcome => exact meets
  | call operation next induction =>
      exact induction _ (meets _ _ (.inl ⟨ready state operation, rfl⟩))

theorem Uses.alone {allowed : interface.Operation → Prop} {Inv : interface.State → Prop}
    (keeps : ∀ operation state, allowed operation → Inv state →
      Inv (interface.perform state operation).2)
    {process : Process interface Outcome} (uses : process.Uses allowed)
    {state : interface.State} (holds : Inv state) : Inv (process.evaluate state).2 := by
  induction process generalizing state with
  | done outcome => exact holds
  | call operation next induction =>
      exact induction _ (uses.2 _) (keeps operation state uses.1 holds)

theorem Uses.alike {allowed : interface.Operation → Prop}
    {Alike : interface.State → interface.State → Prop}
    (alike : ∀ operation left right, allowed operation → Alike left right →
      (interface.perform left operation).1 = (interface.perform right operation).1 ∧
        Alike (interface.perform left operation).2 (interface.perform right operation).2)
    {process : Process interface Outcome} (uses : process.Uses allowed)
    {left right : interface.State} (given : Alike left right) :
    (process.evaluate left).1 = (process.evaluate right).1 ∧
      Alike (process.evaluate left).2 (process.evaluate right).2 := by
  induction process generalizing left right with
  | done outcome => exact ⟨rfl, given⟩
  | call operation next induction =>
      obtain ⟨same, kept⟩ := alike operation left right uses.1 given
      unfold evaluate
      rw [same]
      exact induction _ (uses.2 _) kept

end Process

theorem Fallible.Meets.left {Reply : Type} {holds : interface.State → Prop}
    {process : Fallible interface Error Reply} {state : interface.State}
    (meets : process.Meets (.alone interface) (fun _ => holds) (fun _ => holds) state) :
    holds (process.run.evaluate state).2 := by
  have ended := Process.meets_alone.mp meets
  cases ran : process.run.evaluate state with
  | mk outcome after =>
      rw [ran] at ended
      cases outcome with
      | ok reply => exact ended
      | error error => exact ended

theorem Fallible.Meets.replied {Reply : Type} {onOk : Reply → interface.State → Prop}
    {onError : Error → interface.State → Prop} {process : Fallible interface Error Reply}
    {state after : interface.State} {reply : Reply}
    (meets : process.Meets (.alone interface) onOk onError state)
    (ran : process.run.evaluate state = (.ok reply, after)) : onOk reply after := by
  have ended := Process.meets_alone.mp meets
  rw [ran] at ended
  exact ended

theorem Fallible.Meets.both {Reply : Type} {onOk alsoOk : Reply → interface.State → Prop}
    {onError alsoError : Error → interface.State → Prop}
    {process : Fallible interface Error Reply} {state : interface.State}
    (first : process.Meets (.alone interface) onOk onError state)
    (second : process.Meets (.alone interface) alsoOk alsoError state) :
    process.Meets (.alone interface)
      (fun reply following => onOk reply following ∧ alsoOk reply following)
      (fun error following => onError error following ∧ alsoError error following) state := by
  have one := Process.meets_alone.mp first
  have other := Process.meets_alone.mp second
  apply Process.meets_alone.mpr
  cases ran : (process.run.evaluate state).1 with
  | ok reply =>
      rw [ran] at one other
      exact ⟨one, other⟩
  | error error =>
      rw [ran] at one other
      exact ⟨one, other⟩

end Concurrency

/-! ## Processes judged by what they have done

The logic of a process that runs at once, whichever of its operations fail. It sees the
history beside the state, so a part is judged by the events that it adds. -/

namespace Concurrency

variable {interface : Interface} {Outcome Error Reply : Type}

@[reducible] def Logic.recorded (interface : Interface) (index : Nat) : Logic interface where
  Situation := interface.State × List (Event interface)
  admits := fun situation operation post =>
    ∀ result after, interface.Occurs situation.1 operation result after →
      post result (after, ⟨index, situation.1, operation, result, after⟩ :: situation.2)
  mono := fun implies admitted result after occurs =>
    implies result _ (admitted result after occurs)

theorem Process.execute_recorded {process : Process interface Outcome} {index : Nat}
    {faults : List Bool} {state after : interface.State}
    {history later : List (Event interface)} {outcome : Outcome}
    {post : Outcome → interface.State × List (Event interface) → Prop}
    (meets : process.Meets (.recorded interface index) post (state, history))
    (executed : process.execute index faults state history = some (outcome, after, later)) :
    post outcome (after, later) := by
  induction process generalizing faults state history with
  | done value =>
      simp only [Process.execute, Option.some.injEq, Prod.mk.injEq] at executed
      rcases executed with ⟨rfl, rfl, rfl⟩
      exact meets
  | call operation next induction =>
      rcases execute_call executed with ⟨result, middle, occurs, continued⟩
      exact induction result (meets result middle occurs) continued

/-- What holds whichever operations fail holds where none does. -/
theorem Fallible.Meets.steady {Error Reply : Type} {index : Nat}
    {situation : interface.State × List (Event interface)}
    {onOk : Reply → interface.State × List (Event interface) → Prop}
    {onError : Error → interface.State × List (Event interface) → Prop}
    {process : Fallible interface Error Reply}
    (meets : process.Meets (.recorded interface index) onOk onError situation) :
    process.Meets (.steady interface index) onOk onError situation := by
  revert meets
  unfold Fallible.Meets
  generalize process.run = running
  intro meets
  induction running generalizing situation with
  | done outcome => exact meets
  | call operation next induction =>
      intro result after ready performed
      exact induction result (meets result after (.inl ⟨ready, performed⟩))

/-! ## Processes that insist

A process whose every operation has to succeed before it replies replies with what it
replies by itself, whichever operations fail. -/

@[reducible] def Logic.insisting (allowed : interface.Operation → Prop) : Logic interface where
  Situation := Prop
  admits := fun failed operation post =>
    allowed operation ∧ ∀ result, post result (failed ∨ interface.fault operation = some result)
  mono := fun implies admitted =>
    ⟨admitted.1, fun result => implies result _ (admitted.2 result)⟩

/-- The process takes none but the allowed operations, and replies only if none of them has
failed. -/
abbrev Fallible.Insists {Error Reply : Type} (allowed : interface.Operation → Prop)
    (process : Fallible interface Error Reply) : Prop :=
  process.Meets (.insisting allowed) (fun _ failed => ¬failed) (fun _ _ => True) False

section Insists

variable {Error Reply Value : Type} {allowed : interface.Operation → Prop}

theorem Fallible.Insists.bind {first : Fallible interface Error Value}
    {next : Value → Fallible interface Error Reply} (insists : first.Insists allowed)
    (continued : ∀ value, (next value).Insists allowed) :
    Fallible.Insists allowed (first >>= next) := by
  refine (Fallible.meets_bind first next).mpr
    (Fallible.Meets.mono insists (fun value failed unfailed => ?_) fun _ _ _ => trivial)
  rw [eq_false unfailed]
  exact continued value

theorem Fallible.Insists.footprint {process : Fallible interface Error Reply}
    (insists : process.Insists allowed) :
    process.Meets (.footprint allowed) (fun _ _ => True) (fun _ _ => True) () := by
  refine Fallible.meets_run.mp ?_
  unfold Fallible.Insists Fallible.Meets at insists
  generalize process.run = running at insists ⊢
  generalize False = failed at insists
  induction running generalizing failed with
  | done outcome => trivial
  | call operation next induction =>
      exact ⟨insists.1, fun result => induction result _ (insists.2 result)⟩

/-- What follows is judged both by the reply that the process gives by itself and by what its
operations keep. -/
theorem Fallible.Insists.recorded {index : Nat}
    {situation : interface.State × List (Event interface)}
    {Inv : interface.State × List (Event interface) → Prop}
    {replied : Reply → interface.State → Prop} {refused : Error → interface.State → Prop}
    {onOk : Reply → interface.State × List (Event interface) → Prop}
    {onError : Error → interface.State × List (Event interface) → Prop}
    {process : Fallible interface Error Reply} (insists : process.Insists allowed)
    (alone : process.Meets (.alone interface) replied refused situation.1)
    (keeps : ∀ operation, allowed operation →
      (Logic.recorded interface index).Keeps Inv operation) (holds : Inv situation)
    (ok : ∀ reply following, replied reply following.1 → Inv following → onOk reply following)
    (error : ∀ error following, Inv following → onError error following) :
    process.Meets (.recorded interface index) onOk onError situation := by
  unfold Fallible.Insists at insists
  unfold Fallible.Meets at insists alone ⊢
  generalize process.run = running at insists alone ⊢
  have unfailed : ¬False → running.Meets (.alone interface) _ situation.1 := fun _ => alone
  clear alone
  generalize False = failed at insists unfailed
  induction running generalizing situation failed with
  | done outcome =>
      cases outcome with
      | ok reply => exact ok reply situation (unfailed insists) holds
      | error refusal => exact error refusal situation holds
  | call operation next induction =>
      intro result after occurs
      have kept : Inv (after, ⟨index, situation.1, operation, result, after⟩ :: situation.2) :=
        keeps operation insists.1 situation holds (fun _ following => Inv following)
          (fun _ _ => id) result after occurs
      refine induction result kept _ (insists.2 result) fun clean => ?_
      rcases occurs with ⟨-, performed⟩ | ⟨fault, -⟩
      · have continued := unfailed fun failure => clean (.inl failure)
        simp only [Process.Meets, performed] at continued
        exact continued
      · exact (clean (.inr fault)).elim

end Insists

end Concurrency
