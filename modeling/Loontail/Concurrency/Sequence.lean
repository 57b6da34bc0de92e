import Loontail.Concurrency.Trace

/-! # Requests one after another

A sequence of requests is handled one at a time, each at once; of every request it
is said which of its operations fail. A handler is judged under a condition on the
events it takes, and the condition is met by the history as a whole. -/

namespace Concurrency

variable {interface : Interface} {Request Outcome : Type}

@[reducible] def Logic.provided (interface : Interface) (index : Nat)
    (Condition : Event interface → Prop) : Logic interface where
  Situation := interface.State
  admits := fun state operation post =>
    ∀ result after, interface.Occurs state operation result after →
      Condition ⟨index, state, operation, result, after⟩ → post result after
  mono := fun implies admitted result after occurs met =>
    implies result after (admitted result after occurs met)

@[reducible] def Logic.marked (interface : Interface) (index : Nat)
    (Condition : Event interface → Prop) (mark : Event interface → Bool) : Logic interface where
  Situation := interface.State × Bool
  admits := fun situation operation post =>
    ∀ result after, interface.Occurs situation.1 operation result after →
      Condition ⟨index, situation.1, operation, result, after⟩ →
      post result (after, mark ⟨index, situation.1, operation, result, after⟩ || situation.2)
  mono := fun implies admitted result after occurs met =>
    implies result _ (admitted result after occurs met)

namespace Process

variable {index : Nat} {process : Process interface Outcome} {faults : List Bool}
  {state after : interface.State} {history later : List (Event interface)} {outcome : Outcome}

theorem execute_suffix
    (executed : process.execute index faults state history = some (outcome, after, later)) :
    history <:+ later := by
  induction process generalizing faults state history with
  | done value =>
      simp only [Process.execute, Option.some.injEq, Prod.mk.injEq] at executed
      exact executed.2.2 ▸ List.suffix_refl history
  | call operation next induction =>
      rcases execute_call executed with ⟨result, middle, -, continued⟩
      exact (List.suffix_cons _ history).trans (induction result continued)

theorem execute_provided {Condition : Event interface → Prop}
    {post : Outcome → interface.State → Prop}
    (meets : process.Meets (.provided interface index Condition) post state)
    (executed : process.execute index faults state history = some (outcome, after, later))
    (met : ∀ event ∈ later, Condition event) : post outcome after := by
  induction process generalizing faults state history with
  | done value =>
      simp only [Process.execute, Option.some.injEq, Prod.mk.injEq] at executed
      rcases executed with ⟨rfl, rfl, -⟩
      exact meets
  | call operation next induction =>
      rcases execute_call executed with ⟨result, middle, occurs, continued⟩
      have taken := (execute_suffix continued).subset (List.mem_cons_self)
      exact induction result (meets result middle occurs (met _ taken)) continued

theorem execute_marked {Condition : Event interface → Prop} {mark : Event interface → Bool}
    {post : Outcome → interface.State × Bool → Prop}
    (meets : process.Meets (.marked interface index Condition mark) post
      (state, history.any mark))
    (executed : process.execute index faults state history = some (outcome, after, later))
    (met : ∀ event ∈ later, Condition event) : post outcome (after, later.any mark) := by
  induction process generalizing faults state history with
  | done value =>
      simp only [Process.execute, Option.some.injEq, Prod.mk.injEq] at executed
      rcases executed with ⟨rfl, rfl, rfl⟩
      exact meets
  | call operation next induction =>
      rcases execute_call executed with ⟨result, middle, occurs, continued⟩
      have taken := (execute_suffix continued).subset (List.mem_cons_self)
      exact induction result (meets result middle occurs (met _ taken)) continued

theorem Uses.provided {allowed : interface.Operation → Prop}
    {Condition : Event interface → Prop} {Inv : interface.State → Prop}
    (keeps : ∀ before operation result after, allowed operation → Inv before →
      interface.Occurs before operation result after →
      Condition ⟨index, before, operation, result, after⟩ → Inv after)
    (uses : process.Uses allowed) (holds : Inv state) :
    process.Meets (.provided interface index Condition) (fun _ after => Inv after) state := by
  induction process generalizing state with
  | done outcome => exact holds
  | call operation next induction =>
      intro result after occurs met
      exact induction result (uses.2 result)
        (keeps state operation result after uses.1 holds occurs met)

end Process

def inSequence {Request : Type} (calls : List (Request × List Bool)) : List (Turn Request) :=
  calls.map fun (request, faults) => .atomically request faults

namespace Pool

variable {handle : Request → Process interface Outcome}

theorem since_turns {pool next : Pool interface Request Outcome} {turns : List (Turn Request)}
    (reached : run (turn handle) pool turns = some next) : pool.Since next := by
  rcases turns_moves reached with ⟨moves, ran⟩
  exact since_run ran

/-- What every request keeps while its events meet the condition holds after a
sequence of requests whose history meets it. -/
theorem inSequence_invariant (Inv : interface.State → Prop) {Condition : Event interface → Prop}
    (preserved : ∀ index request state, Inv state →
      (handle request).Meets (.provided interface index Condition) (fun _ after => Inv after) state)
    {pool final : Pool interface Request Outcome} {calls : List (Request × List Bool)}
    (holds : Inv pool.shared)
    (reached : run (turn handle) pool (inSequence calls) = some final)
    (met : ∀ event ∈ final.history, Condition event) : Inv final.shared := by
  induction calls generalizing pool with
  | nil => exact Option.some.inj reached ▸ holds
  | cons call rest induction =>
      rcases Option.bind_eq_some_iff.mp reached with ⟨next, turned, continued⟩
      rcases turn_atomically turned with ⟨outcome, executed, -⟩
      rcases since_turns continued with ⟨taken, history, -⟩
      have earlier : ∀ event ∈ next.history, Condition event := by
        intro event member
        apply met
        rw [history]
        exact List.mem_append_right taken member
      exact induction (Process.execute_provided (preserved _ _ _ holds) executed earlier)
        continued

end Pool

end Concurrency

/-! ## Requests whose failures are given

A request that runs at once follows a script of which of its operations fail. What it
comes to is judged together with whether any of its events was marked. -/

namespace Concurrency

variable {interface : Interface} {Outcome : Type}

/-- The logic of a script: an operation fails exactly if the script says so. -/
@[reducible] def Logic.scripted (interface : Interface) (index : Nat)
    (mark : Event interface → Bool) : Logic interface where
  Situation := interface.State × List Bool × Bool
  admits := fun (state, script, marked) operation post =>
    (script.headD false = true → ∀ result, interface.fault operation = some result →
      post result (state, script.tail,
        mark ⟨index, state, operation, result, state⟩ || marked)) ∧
    (script.headD false = false → ∀ result after, interface.ready state operation = true →
      interface.perform state operation = (result, after) →
      post result (after, script.tail,
        mark ⟨index, state, operation, result, after⟩ || marked))
  mono := fun implies admitted =>
    ⟨fun fails result fault => implies result _ (admitted.1 fails result fault),
      fun runs result after ready performed =>
        implies result _ (admitted.2 runs result after ready performed)⟩

theorem Process.execute_scripted {process : Process interface Outcome} {index : Nat}
    {script : List Bool} {state after : interface.State} {history later : List (Event interface)}
    {outcome : Outcome} {mark : Event interface → Bool}
    {post : Outcome → interface.State → Bool → Prop}
    (meets : process.Meets (.scripted interface index mark)
      (fun outcome following => post outcome following.1 following.2.2)
      (state, script, history.any mark))
    (executed : process.execute index script state history = some (outcome, after, later)) :
    post outcome after (later.any mark) := by
  induction process generalizing script state history with
  | done value =>
      simp only [Process.execute, Option.some.injEq, Prod.mk.injEq] at executed
      rcases executed with ⟨rfl, rfl, rfl⟩
      exact meets
  | call operation next induction =>
      rcases Option.bind_eq_some_iff.mp executed with ⟨⟨result, middle⟩, happened, continued⟩
      cases fails : script.headD false with
      | true =>
          rw [fails, if_pos rfl] at happened
          rcases Option.map_eq_some_iff.mp happened with ⟨value, fault, same⟩
          cases same
          exact induction result (meets.1 fails result fault) continued
      | false =>
          rw [fails, if_neg Bool.false_ne_true] at happened
          split at happened
          · rename_i ready
            have performed := Option.some.inj happened
            exact induction result (meets.2 fails result middle ready performed) continued
          · cases happened

/-- One of the first `count` operations fails. -/
theorem mem_take_succ {script : List Bool} {count : Nat} :
    true ∈ script.take (count + 1) ↔ script.headD false = true ∨ true ∈ script.tail.take count := by
  cases script with
  | nil => simp
  | cons first rest => simp [eq_comm]

end Concurrency
