import Loontail.Concurrency.Process
import Loontail.Concurrency.Pool

/-! # Requests handled at once

A turn either lets one process make one move, or handles a whole request with
nothing in between. The second is a schedule of the first kind, so what holds of
all interleavings holds of runs of turns. -/

namespace Concurrency

variable {interface : Interface} {Request Outcome : Type}

namespace Process

/-- Run the process to its end with nothing in between. `faults` says which
operations fail; operations past its end do not. -/
def execute (index : Nat) : Process interface Outcome → List Bool →
    interface.State → List (Event interface) →
    Option (Outcome × interface.State × List (Event interface))
  | .done outcome, _, state, history => some (outcome, state, history)
  | .call operation next, faults, state, history =>
      let happened : Option (interface.Result operation × interface.State) :=
        if faults.headD false then
          (interface.fault operation).map fun result => (result, state)
        else if interface.ready state operation then
          some (interface.perform state operation)
        else none
      happened.bind fun (result, after) =>
        (next result).execute index faults.tail after
          (⟨index, state, operation, result, after⟩ :: history)

theorem execute_call {operation : interface.Operation}
    {next : interface.Result operation → Process interface Outcome} {index : Nat}
    {faults : List Bool} {state after : interface.State}
    {history later : List (Event interface)} {outcome : Outcome}
    (executed : (call operation next).execute index faults state history =
      some (outcome, after, later)) :
    ∃ result middle, interface.Occurs state operation result middle ∧
      (next result).execute index faults.tail middle
        (⟨index, state, operation, result, middle⟩ :: history) =
          some (outcome, after, later) := by
  rcases Option.bind_eq_some_iff.mp executed with ⟨⟨result, middle⟩, happened, continued⟩
  refine ⟨result, middle, ?_, continued⟩
  split at happened
  · rcases Option.map_eq_some_iff.mp happened with ⟨value, fault, equal⟩
    cases equal
    exact .inr ⟨fault, rfl⟩
  · split at happened
    · rename_i ready
      exact .inl ⟨ready, Option.some.inj happened⟩
    · cases happened

/-- What a logic demands of a process comes true when the process runs at once:
`view` is what the logic sees of the shared state, and `Good` what each admitted
operation guarantees of its event. -/
theorem execute_meets {logic : Logic interface} {index : Nat}
    {view : interface.State → logic.Situation} {Good : Event interface → Prop}
    {post : Outcome → logic.Situation → Prop}
    (sound : ∀ before operation result after following,
      logic.admits (view before) operation following →
      interface.Occurs before operation result after →
      Good ⟨index, before, operation, result, after⟩ ∧ following result (view after))
    {process : Process interface Outcome} {faults : List Bool}
    {state after : interface.State} {history later : List (Event interface)}
    {outcome : Outcome} (meets : process.Meets logic post (view state))
    (executed : process.execute index faults state history =
      some (outcome, after, later)) :
    post outcome (view after) ∧ ∃ taken, later = taken ++ history ∧
      ∀ event ∈ taken, event.process = index ∧ Good event := by
  induction process generalizing faults state history with
  | done value =>
      simp only [Process.execute, Option.some.injEq, Prod.mk.injEq] at executed
      rcases executed with ⟨rfl, rfl, rfl⟩
      exact ⟨meets, [], rfl, by simp⟩
  | call operation next induction =>
      rcases execute_call executed with ⟨result, middle, occurs, continued⟩
      rcases sound state operation result middle _ meets occurs with ⟨good, rest⟩
      rcases induction result rest continued with ⟨ended, taken, rfl, all⟩
      refine ⟨ended, taken ++ [⟨index, state, operation, result, middle⟩], by simp, ?_⟩
      intro event member
      rcases List.mem_append.mp member with earlier | last
      · exact all event earlier
      · rw [List.mem_singleton.mp last]
        exact ⟨rfl, good⟩

end Process

/-- The logic that follows every way in which an operation can go. -/
@[reducible] def Logic.everyWay (interface : Interface) : Logic interface where
  Situation := interface.State
  admits := fun state operation post =>
    ∀ result after, interface.Occurs state operation result after → post result after
  mono := fun implies admitted result after occurs =>
    implies result after (admitted result after occurs)

theorem Process.execute_everyWay {process : Process interface Outcome} {index : Nat}
    {faults : List Bool} {state after : interface.State}
    {history later : List (Event interface)} {outcome : Outcome}
    {post : Outcome → interface.State → Prop}
    (meets : process.Meets (.everyWay interface) post state)
    (executed : process.execute index faults state history = some (outcome, after, later)) :
    post outcome after := by
  refine (@execute_meets interface Outcome (.everyWay interface) index id (fun _ => True) post
    ?_ process faults state after history later outcome meets executed).1
  intro before operation result middle following admitted occurs
  exact ⟨trivial, admitted result middle occurs⟩

theorem Process.Uses.everyWay {allowed : interface.Operation → Prop}
    {Inv : interface.State → Prop}
    (keeps : ∀ before operation result after, allowed operation → Inv before →
      interface.Occurs before operation result after → Inv after)
    {process : Process interface Outcome} (uses : process.Uses allowed)
    {state : interface.State} (holds : Inv state) :
    process.Meets (.everyWay interface) (fun _ after => Inv after) state := by
  induction process generalizing state with
  | done outcome => exact holds
  | call operation next induction =>
      intro result after occurs
      exact induction result (uses.2 result) (keeps state operation result after uses.1 holds
        occurs)

/-- The logic of a process that runs at once and whose operations do not fail; it
sees the history beside the state. -/
@[reducible] def Logic.steady (interface : Interface) (index : Nat) : Logic interface where
  Situation := interface.State × List (Event interface)
  admits := fun situation operation post =>
    ∀ result after, interface.ready situation.1 operation = true →
      interface.perform situation.1 operation = (result, after) →
      post result (after, ⟨index, situation.1, operation, result, after⟩ :: situation.2)
  mono := fun implies admitted result after ready performed =>
    implies result _ (admitted result after ready performed)

theorem Process.execute_steady {process : Process interface Outcome} {index : Nat}
    {state after : interface.State} {history later : List (Event interface)}
    {outcome : Outcome} {post : Outcome → interface.State × List (Event interface) → Prop}
    (meets : process.Meets (.steady interface index) post (state, history))
    (executed : process.execute index [] state history = some (outcome, after, later)) :
    post outcome (after, later) := by
  induction process generalizing state history with
  | done value =>
      simp only [Process.execute, Option.some.injEq, Prod.mk.injEq] at executed
      rcases executed with ⟨rfl, rfl, rfl⟩
      exact meets
  | call operation next induction =>
      rcases Option.bind_eq_some_iff.mp executed with ⟨⟨result, middle⟩, happened, continued⟩
      simp only [List.headD_nil, Bool.false_eq_true, if_false] at happened
      split at happened
      · rename_i ready
        exact induction result (meets result middle ready (Option.some.inj happened)) continued
      · cases happened

theorem Process.execute_total (always : ∀ state operation,
      interface.ready state operation = true) (process : Process interface Outcome) (index : Nat)
    (state : interface.State) (history : List (Event interface)) :
    ∃ outcome after later, process.execute index [] state history =
      some (outcome, after, later) := by
  induction process generalizing state history with
  | done outcome => exact ⟨outcome, state, history, rfl⟩
  | call operation next induction =>
      simp only [Process.execute, List.headD_nil, Bool.false_eq_true, if_false, always, if_true,
        Option.bind_some]
      exact induction _ _ _

inductive Turn (Request : Type) where
  | atomically (request : Request) (faults : List Bool)
  | move (choice : Move Request)

/-- One request after another, each at once and none of whose operations fails. -/
def inTurn {Request : Type} (requests : List Request) : List (Turn Request) :=
  requests.map fun request => .atomically request []

namespace Pool

def turn (handle : Request → Process interface Outcome)
    (pool : Pool interface Request Outcome) :
    Turn Request → Option (Pool interface Request Outcome)
  | .atomically request faults =>
      ((handle request).execute pool.entries.length faults pool.shared
        pool.history).map fun (outcome, shared, history) =>
          { shared, entries := pool.entries ++ [(request, .done outcome)], history }
  | .move choice => pool.move handle choice

variable {handle : Request → Process interface Outcome}

theorem turn_atomically {pool next : Pool interface Request Outcome}
    {request : Request} {faults : List Bool}
    (turned : pool.turn handle (.atomically request faults) = some next) :
    ∃ outcome, (handle request).execute pool.entries.length faults pool.shared
        pool.history = some (outcome, next.shared, next.history) ∧
      next.entries = pool.entries ++ [(request, .done outcome)] := by
  rcases Option.map_eq_some_iff.mp turned with
    ⟨⟨outcome, shared, history⟩, executed, rfl⟩
  exact ⟨outcome, executed, rfl⟩

private theorem execute_moves (handle : Request → Process interface Outcome)
    (process : Process interface Outcome)
    (request : Request) (index : Nat) (faults : List Bool)
    (pool : Pool interface Request Outcome) (outcome : Outcome)
    (shared : interface.State) (history : List (Event interface))
    (found : pool.entries[index]? = some (request, process))
    (executed : process.execute index faults pool.shared pool.history =
      some (outcome, shared, history)) :
    ∃ moves, run (move handle) pool moves =
      some { shared, entries := pool.entries.set index (request, .done outcome),
             history } := by
  induction process generalizing faults pool with
  | done value =>
      simp only [Process.execute, Option.some.injEq, Prod.mk.injEq] at executed
      rcases executed with ⟨rfl, rfl, rfl⟩
      refine ⟨[], ?_⟩
      have same : pool.entries.set index (request, .done value) = pool.entries := by
        rcases List.getElem?_eq_some_iff.mp found with ⟨bound, equal⟩
        rw [← equal, List.set_getElem_self]
      rw [same]
      rfl
  | call operation next induction =>
      rcases Option.bind_eq_some_iff.mp executed with
        ⟨⟨result, after⟩, happened, continued⟩
      have bound := (List.getElem?_eq_some_iff.mp found).1
      rcases induction result faults.tail
        (pool.operated index request operation result after (next result))
        (by simp [operated, bound]) continued with ⟨moves, ran⟩
      simp only [operated, List.set_set] at ran
      split at happened
      · rcases Option.map_eq_some_iff.mp happened with ⟨value, fault, equal⟩
        cases equal
        refine ⟨.fail index :: moves, ?_⟩
        simpa [run, move, found, fault, operated] using ran
      · split at happened
        · rename_i ready
          refine ⟨.advance index :: moves, ?_⟩
          have performed := Option.some.inj happened
          simpa [run, move, found, ready, performed, operated] using ran
        · cases happened

theorem turn_moves {pool next : Pool interface Request Outcome}
    {choice : Turn Request} (turned : pool.turn handle choice = some next) :
    ∃ moves, run (move handle) pool moves = some next := by
  cases choice with
  | move choice => exact ⟨[choice], by simp [run, show pool.move handle choice = _ from turned]⟩
  | atomically request faults =>
      rcases turn_atomically turned with ⟨outcome, executed, entries⟩
      have found : (pool.started request (handle request)).entries[
          pool.entries.length]? = some (request, handle request) := by
        simp [started]
      rcases execute_moves handle (handle request) request
        pool.entries.length faults (pool.started request (handle request)) outcome
        next.shared next.history found executed with ⟨moves, ran⟩
      refine ⟨.start request :: moves, ?_⟩
      rw [run, show pool.move handle (.start request) =
        some (pool.started request (handle request)) from rfl, Option.bind_some, ran]
      simp [started, ← entries]

/-- What a run of turns reaches, some interleaving of single moves reaches. -/
theorem turns_moves {pool final : Pool interface Request Outcome}
    {turns : List (Turn Request)} (reached : run (turn handle) pool turns = some final) :
    ∃ moves, run (move handle) pool moves = some final := by
  induction turns generalizing pool with
  | nil => exact ⟨[], reached⟩
  | cons choice rest induction =>
      rcases Option.bind_eq_some_iff.mp reached with ⟨next, turned, continued⟩
      rcases turn_moves turned with ⟨first, reachedNext⟩
      rcases induction continued with ⟨second, reachedFinal⟩
      refine ⟨first ++ second, ?_⟩
      rw [run_append, reachedNext, Option.bind_some, reachedFinal]

theorem inTurn_invariant (Inv : Pool interface Request Outcome → Prop)
    (preserved : ∀ pool request next, Inv pool →
      pool.turn handle (.atomically request []) = some next → Inv next)
    {pool final : Pool interface Request Outcome} {requests : List Request} (holds : Inv pool)
    (reached : run (turn handle) pool (inTurn requests) = some final) : Inv final := by
  induction requests generalizing pool with
  | nil => exact Option.some.inj reached ▸ holds
  | cons request rest induction =>
      rcases Option.bind_eq_some_iff.mp reached with ⟨next, turned, continued⟩
      exact induction (preserved pool request next holds turned) continued

end Pool

end Concurrency
