import Loontail.Concurrency.Process
import Loontail.Concurrency.Run
import Mathlib.Data.List.Basic

/-! # Pools of interleaved processes

A pool holds the shared state, every process started so far beside the request
that started it, and the history of the operations taken. A schedule is a list
of moves; quantifying over schedules is quantifying over interleavings. -/

namespace Concurrency

/-- One operation that a process took, with the shared state it found and left. -/
structure Event (interface : Interface) where
  process : Nat
  before : interface.State
  operation : interface.Operation
  result : interface.Result operation
  after : interface.State

/-- `history` is newest first. A finished process stays in `entries` with its
outcome, so that positions name processes for the whole run. -/
structure Pool (interface : Interface) (Request Outcome : Type) where
  shared : interface.State
  entries : List (Request × Process interface Outcome)
  history : List (Event interface)

inductive Move (Request : Type) where
  | start (request : Request)
  | advance (process : Nat)
  | fail (process : Nat)

namespace Pool

variable {interface : Interface} {Request Outcome : Type}

def initial (shared : interface.State) : Pool interface Request Outcome where
  shared := shared
  entries := []
  history := []

def started (pool : Pool interface Request Outcome) (request : Request)
    (process : Process interface Outcome) : Pool interface Request Outcome :=
  { pool with entries := pool.entries ++ [(request, process)] }

/-- The pool after the process at `index` took an operation. -/
def operated (pool : Pool interface Request Outcome) (index : Nat)
    (request : Request) (operation : interface.Operation)
    (result : interface.Result operation) (shared : interface.State)
    (rest : Process interface Outcome) : Pool interface Request Outcome where
  shared := shared
  entries := pool.entries.set index (request, rest)
  history := ⟨index, pool.shared, operation, result, shared⟩ :: pool.history

def move (handle : Request → Process interface Outcome)
    (pool : Pool interface Request Outcome) :
    Move Request → Option (Pool interface Request Outcome)
  | .start request => some (pool.started request (handle request))
  | .advance index =>
      match pool.entries[index]? with
      | some (request, .call operation next) =>
          if interface.ready pool.shared operation then
            let (result, shared) := interface.perform pool.shared operation
            some (pool.operated index request operation result shared (next result))
          else none
      | _ => none
  | .fail index =>
      match pool.entries[index]? with
      | some (request, .call operation next) =>
          (interface.fault operation).map fun result =>
            pool.operated index request operation result pool.shared (next result)
      | _ => none

/-- The operation that the process at `index` takes at its next move. -/
def upcoming (pool : Pool interface Request Outcome) (index : Nat) :
    Option interface.Operation :=
  pool.entries[index]?.bind fun entry => entry.2.upcoming

def owner (pool : Pool interface Request Outcome) (index : Nat) : Option Request :=
  (pool.entries[index]?).map (·.1)

def succeeded {Error Reply : Type} (pool : Pool interface Request (Except Error Reply)) : Bool :=
  pool.entries.all fun entry =>
    match entry.2 with
    | .done (.ok _) => true
    | _ => false

theorem owner_of_entry {pool : Pool interface Request Outcome} {index : Nat}
    {request : Request} {process : Process interface Outcome}
    (found : pool.entries[index]? = some (request, process)) :
    pool.owner index = some request := by
  rw [owner, found, Option.map_some]

theorem owner_operated {pool : Pool interface Request Outcome} {index : Nat}
    {request : Request} {process : Process interface Outcome}
    (found : pool.entries[index]? = some (request, process))
    (operation : interface.Operation) (result : interface.Result operation)
    (shared : interface.State) (rest : Process interface Outcome) (position : Nat) :
    (pool.operated index request operation result shared rest).owner position =
      pool.owner position := by
  by_cases here : index = position
  · subst here
    have bound := (List.getElem?_eq_some_iff.mp found).1
    simp only [owner, operated, List.getElem?_set_self bound, found, Option.map_some]
  · simp only [owner, operated, List.getElem?_set_ne here]

theorem owner_append {pool : Pool interface Request Outcome} {index : Nat}
    {request : Request} (owned : pool.owner index = some request)
    (shared : interface.State) (history : List (Event interface))
    (entry : Request × Process interface Outcome) :
    (Pool.mk shared (pool.entries ++ [entry]) history).owner index = some request := by
  rcases Option.map_eq_some_iff.mp owned with ⟨found, present, equal⟩
  have bound := (List.getElem?_eq_some_iff.mp present).1
  simp [owner, List.getElem?_append_left bound, present, equal]

theorem owner_started (pool : Pool interface Request Outcome) (request : Request)
    (process : Process interface Outcome) (index : Nat) :
    (pool.started request process).owner index =
      if index = pool.entries.length then some request else pool.owner index := by
  simp only [owner, started, List.getElem?_append]
  split
  · rename_i old
    rw [if_neg (by omega)]
  · rename_i new
    by_cases last : index = pool.entries.length
    · simp [last]
    · rw [if_neg last, List.getElem?_eq_none (by simp; omega),
        List.getElem?_eq_none (by omega)]

/-! ## What one move can do -/

variable {handle : Request → Process interface Outcome}

theorem move_cases {pool next : Pool interface Request Outcome}
    {choice : Move Request} (moved : pool.move handle choice = some next) :
    (∃ request, choice = .start request ∧
      next = pool.started request (handle request)) ∨
    ∃ index request operation rest result after,
      (choice = .advance index ∨
        choice = .fail index ∧ interface.fault operation = some result) ∧
      pool.entries[index]? = some (request, .call operation rest) ∧
      interface.Occurs pool.shared operation result after ∧
      next = pool.operated index request operation result after (rest result) := by
  cases choice with
  | start request =>
      exact .inl ⟨request, rfl, (Option.some.inj moved).symm⟩
  | advance index =>
      right
      simp only [move] at moved
      split at moved
      · rename_i request operation rest found
        split at moved
        · rename_i ready
          exact ⟨index, request, operation, rest, _, _, .inl rfl, found,
            .inl ⟨ready, rfl⟩, (Option.some.inj moved).symm⟩
        · cases moved
      · cases moved
  | fail index =>
      right
      simp only [move] at moved
      split at moved
      · rename_i request operation rest found
        rcases Option.map_eq_some_iff.mp moved with ⟨result, fault, rfl⟩
        exact ⟨index, request, operation, rest, result, _, .inr ⟨rfl, fault⟩, found,
          .inr ⟨fault, rfl⟩, rfl⟩
      · cases moved

/-- A process belongs to the request that started it for the whole run. -/
theorem owner_move {pool next : Pool interface Request Outcome} {choice : Move Request}
    (moved : pool.move handle choice = some next) {index : Nat} {request : Request}
    (owned : pool.owner index = some request) : next.owner index = some request := by
  rcases move_cases moved with ⟨started, -, rfl⟩ |
    ⟨position, first, operation, rest, result, after, -, found, -, rfl⟩
  · exact owner_append owned _ _ _
  · exact (owner_operated found _ _ _ _ _).trans owned

theorem performed_of_advance {pool next : Pool interface Request Outcome} {index : Nat}
    {event : Event interface} (moved : pool.move handle (.advance index) = some next)
    (history : next.history = event :: pool.history) :
    interface.perform event.before event.operation = (event.result, event.after) := by
  simp only [move] at moved
  split at moved
  · split at moved
    · obtain rfl := Option.some.inj moved
      obtain ⟨rfl, -⟩ := List.cons.inj history
      rfl
    · cases moved
  · cases moved

end Pool

end Concurrency
