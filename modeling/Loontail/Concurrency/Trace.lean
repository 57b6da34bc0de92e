import Loontail.Concurrency.Turn

/-! # Traces

The history of a run is a chain of events: each found the state the one before
it left. What holds of every chain holds of every run, whichever way its moves
were chosen. -/

namespace Concurrency

variable {interface : Interface} {Request Outcome : Type}

def Event.Happened (event : Event interface) : Prop :=
  interface.Occurs event.before event.operation event.result event.after

/-- The history, newest first, leads from `start` to a state. -/
inductive Traced (start : interface.State) :
    List (Event interface) → interface.State → Prop
  | start : Traced start [] start
  | event (event : Event interface) {history : List (Event interface)}
      (earlier : Traced start history event.before) (happened : event.Happened) :
      Traced start (event :: history) event.after

namespace Traced

variable {start final : interface.State} {history : List (Event interface)}

/-- Induction along a trace. What is known of the events of the whole history
may be used at each of them, with the history before it. -/
theorem invariant {Inv : List (Event interface) → interface.State → Prop}
    (traced : Traced start history final) (initial : Inv [] start)
    (preserved : ∀ (event : Event interface) older, event :: older <:+ history →
      event.Happened → Inv older event.before → Inv (event :: older) event.after) :
    Inv history final := by
  induction traced with
  | start => exact initial
  | event event earlier happened induction =>
      refine preserved _ _ (List.suffix_refl _) happened
        (induction fun event older suffix => ?_)
      exact preserved event older (suffix.trans (List.suffix_cons _ _))

theorem of_suffix {event : Event interface} {older : List (Event interface)}
    (traced : Traced start history final) (suffix : event :: older <:+ history) :
    Traced start older event.before ∧ event.Happened := by
  induction traced with
  | start => cases List.suffix_nil.mp suffix
  | event event earlier happened induction =>
      rcases List.suffix_cons_iff.mp suffix with equal | within
      · cases equal
        exact ⟨earlier, happened⟩
      · exact induction within

theorem since {event : Event interface} {older : List (Event interface)}
    (traced : Traced start history final) (suffix : event :: older <:+ history) :
    ∃ newer, history = newer ++ event :: older ∧ Traced event.after newer final := by
  induction traced with
  | start => cases List.suffix_nil.mp suffix
  | event last earlier happened induction =>
      rcases List.suffix_cons_iff.mp suffix with equal | within
      · cases equal
        exact ⟨[], rfl, .start⟩
      · obtain ⟨newer, rfl, later⟩ := induction within
        exact ⟨last :: newer, rfl, .event last later happened⟩

theorem of_append {event : Event interface} {newer older : List (Event interface)}
    (traced : Traced start (newer ++ event :: older) final) :
    Traced event.after newer final := by
  obtain ⟨other, same, later⟩ := traced.since (List.suffix_append newer (event :: older))
  rw [List.append_cancel_right same]
  exact later

theorem trans {middle : interface.State} {newer : List (Event interface)}
    (earlier : Traced start history middle) (later : Traced middle newer final) :
    Traced start (newer ++ history) final := by
  induction later with
  | start => exact earlier
  | event event _ happened induction => exact .event event induction happened

end Traced

theorem suffix_of_mem {event : Event interface} {history : List (Event interface)}
    (member : event ∈ history) : ∃ older, event :: older <:+ history := by
  rcases List.mem_iff_append.mp member with ⟨newer, older, rfl⟩
  exact ⟨older, List.suffix_append newer (event :: older)⟩

theorem same_or_earlier {history leftOlder rightOlder : List (Event interface)}
    {left right : Event interface} (leftAt : left :: leftOlder <:+ history)
    (rightAt : right :: rightOlder <:+ history) :
    left = right ∨ left :: leftOlder <:+ rightOlder ∨ right :: rightOlder <:+ leftOlder := by
  rcases List.suffix_or_suffix_of_suffix leftAt rightAt with within | within
  · rcases List.suffix_cons_iff.mp within with same | earlier
    · exact .inl (List.cons.inj same).1
    · exact .inr (.inl earlier)
  · rcases List.suffix_cons_iff.mp within with same | earlier
    · exact .inl (List.cons.inj same).1.symm
    · exact .inr (.inr earlier)

theorem mem_or_earlier {history : List (Event interface)} {left right : Event interface}
    (leftMem : left ∈ history) (rightMem : right ∈ history) :
    left = right ∨ (∃ older, right :: older <:+ history ∧ left ∈ older) ∨
      ∃ older, left :: older <:+ history ∧ right ∈ older := by
  obtain ⟨leftOlder, leftAt⟩ := suffix_of_mem leftMem
  obtain ⟨rightOlder, rightAt⟩ := suffix_of_mem rightMem
  rcases same_or_earlier leftAt rightAt with same | earlier | earlier
  · exact .inl same
  · exact .inr (.inl ⟨rightOlder, rightAt, earlier.subset (by simp)⟩)
  · exact .inr (.inr ⟨leftOlder, leftAt, earlier.subset (by simp)⟩)

def Throughout (condition : Event interface → List (Event interface) → Prop) :
    List (Event interface) → Prop
  | [] => True
  | event :: older => condition event older ∧ Throughout condition older

instance Throughout.decidable {condition : Event interface → List (Event interface) → Prop}
    [∀ event older, Decidable (condition event older)] :
    (history : List (Event interface)) → Decidable (Throughout condition history)
  | [] => .isTrue trivial
  | event :: older =>
      have : Decidable (Throughout condition older) := decidable older
      inferInstanceAs (Decidable (condition event older ∧ Throughout condition older))

theorem throughout_iff {condition : Event interface → List (Event interface) → Prop}
    {history : List (Event interface)} : Throughout condition history ↔
      ∀ event older, event :: older <:+ history → condition event older := by
  induction history with
  | nil => simp [Throughout]
  | cons event rest induction =>
      rw [Throughout, induction]
      constructor
      · rintro ⟨newest, earlier⟩ other older suffix
        rcases List.suffix_cons_iff.mp suffix with same | within
        · cases same
          exact newest
        · exact earlier other older within
      · intro all
        exact ⟨all event rest (List.suffix_refl _), fun other older suffix =>
          all other older (suffix.trans (List.suffix_cons _ _))⟩

def Answered (history : List (Event interface)) (process : Nat)
    (operation : interface.Operation) (result : interface.Result operation) : Prop :=
  ∃ before after, ⟨process, before, operation, result, after⟩ ∈ history

section Answered

variable {event : Event interface} {history : List (Event interface)} {process : Nat}
  {operation : interface.Operation} {result : interface.Result operation}

theorem Answered.mono {longer : List (Event interface)} (within : history ⊆ longer)
    (answered : Answered history process operation result) :
    Answered longer process operation result := by
  rcases answered with ⟨before, after, member⟩
  exact ⟨before, after, within member⟩

theorem Answered.later (answered : Answered history process operation result) :
    Answered (event :: history) process operation result :=
  answered.mono (List.subset_cons_self event history)

theorem answered_cons
    (answered : Answered (event :: history) process operation result) :
    (∃ before after, event = ⟨process, before, operation, result, after⟩) ∨
      Answered history process operation result := by
  rcases answered with ⟨before, after, member⟩
  rcases List.mem_cons.mp member with same | earlier
  · exact .inl ⟨before, after, same.symm⟩
  · exact .inr ⟨before, after, earlier⟩

def took [DecidableEq interface.Operation] (history : List (Event interface))
    (process : Nat) (operation : interface.Operation) : Bool :=
  history.any fun event => event.process = process && event.operation = operation

theorem took_iff [DecidableEq interface.Operation] : took history process operation = true ↔
    ∃ result, Answered history process operation result := by
  simp only [took, List.any_eq_true, Bool.and_eq_true, decide_eq_true_eq]
  constructor
  · rintro ⟨⟨_, before, _, result, after⟩, member, rfl, rfl⟩
    exact ⟨result, before, after, member⟩
  · rintro ⟨result, before, after, member⟩
    exact ⟨_, member, rfl, rfl⟩

theorem took_cons [DecidableEq interface.Operation] :
    took (event :: history) process operation = true ↔
      event.process = process ∧ event.operation = operation ∨
        took history process operation = true := by
  simp [took]

theorem took_later [DecidableEq interface.Operation]
    (done : took history process operation = true) :
    took (event :: history) process operation = true :=
  took_cons.mpr (.inr done)

end Answered

/-! ## Runs are traces -/

theorem Process.execute_traced {allowed : interface.Operation → Prop}
    {process : Process interface Outcome} {index : Nat} {faults : List Bool}
    {state after : interface.State} {history later : List (Event interface)}
    {outcome : Outcome} (uses : process.Uses allowed)
    (executed : process.execute index faults state history = some (outcome, after, later)) :
    ∃ taken, later = taken ++ history ∧ Traced state taken after ∧
      ∀ event ∈ taken, allowed event.operation := by
  induction process generalizing faults state history with
  | done value =>
      simp only [Process.execute, Option.some.injEq, Prod.mk.injEq] at executed
      rcases executed with ⟨-, rfl, rfl⟩
      exact ⟨[], rfl, .start, by simp⟩
  | call operation next induction =>
      rcases execute_call executed with ⟨result, middle, occurs, continued⟩
      rcases induction result (uses.2 result) continued with ⟨taken, rfl, traced, within⟩
      have first : Traced state [⟨index, state, operation, result, middle⟩] middle :=
        .event ⟨index, state, operation, result, middle⟩ .start occurs
      refine ⟨taken ++ [⟨index, state, operation, result, middle⟩], by simp,
        first.trans traced, fun event member => ?_⟩
      rcases List.mem_append.mp member with later | now
      · exact within event later
      · rw [List.mem_singleton.mp now]
        exact uses.1

namespace Pool

variable {handle : Request → Process interface Outcome}

def Since (pool next : Pool interface Request Outcome) : Prop :=
  ∃ taken, next.history = taken ++ pool.history ∧ Traced pool.shared taken next.shared

theorem since_move {pool next : Pool interface Request Outcome} {choice : Move Request}
    (moved : pool.move handle choice = some next) : pool.Since next := by
  rcases move_cases moved with ⟨request, -, rfl⟩ |
    ⟨index, request, operation, rest, result, after, -, -, occurs, rfl⟩
  · exact ⟨[], rfl, .start⟩
  · exact ⟨[_], rfl, .event ⟨index, pool.shared, operation, result, after⟩ .start occurs⟩

theorem since_run {pool next : Pool interface Request Outcome} {moves : List (Move Request)}
    (reached : run (move handle) pool moves = some next) : pool.Since next := by
  refine invariant pool.Since (fun middle choice next since moved => ?_) ⟨[], rfl, .start⟩
    reached
  rcases since with ⟨older, history, traced⟩
  rcases since_move moved with ⟨newer, extended, continued⟩
  exact ⟨newer ++ older, by rw [extended, history, List.append_assoc], traced.trans continued⟩

theorem since_turn {pool next : Pool interface Request Outcome} {choice : Turn Request}
    (turned : pool.turn handle choice = some next) : pool.Since next := by
  rcases turn_moves turned with ⟨moves, ran⟩
  exact since_run ran

theorem traced_of_run {shared : interface.State}
    {final : Pool interface Request Outcome} {moves : List (Move Request)}
    (reached : run (move handle) (initial shared) moves = some final) :
    Traced shared final.history final.shared := by
  rcases since_run reached with ⟨taken, history, traced⟩
  rw [history]
  simpa [initial] using traced

theorem traced_of_turns {shared : interface.State}
    {final : Pool interface Request Outcome} {turns : List (Turn Request)}
    (reached : run (turn handle) (initial shared) turns = some final) :
    Traced shared final.history final.shared := by
  rcases turns_moves reached with ⟨moves, ran⟩
  exact traced_of_run ran

/-! ## Contracts

When requests that check before they act are handled at once, each of their
events finds what was checked. -/

section Contract

variable {Contract : Request → Event interface → Prop}

/-- Every event keeps the contract of the request behind it, and the processes
still under way only take operations that keep every contract. -/
structure Kept (Contract : Request → Event interface → Prop)
    (pool : Pool interface Request Outcome) : Prop where
  events : ∀ event ∈ pool.history, ∃ request,
    pool.owner event.process = some request ∧ Contract request event
  underWay : ∀ (index : Nat) (request : Request) (process : Process interface Outcome),
    pool.entries[index]? = some (request, process) →
      process.Uses fun operation => ∀ process before result after,
        Contract request ⟨process, before, operation, result, after⟩

theorem kept_initial (shared : interface.State) :
    Kept Contract (initial shared : Pool interface Request Outcome) := by
  constructor <;> simp [initial]

private theorem kept_append {pool : Pool interface Request Outcome}
    (kept : Kept Contract pool) (shared : interface.State)
    (taken : List (Event interface)) (request : Request)
    (process : Process interface Outcome)
    (contract : ∀ event ∈ taken,
      event.process = pool.entries.length ∧ Contract request event)
    (uses : process.Uses fun operation => ∀ process before result after,
      Contract request ⟨process, before, operation, result, after⟩) :
    Kept Contract (Pool.mk shared (pool.entries ++ [(request, process)])
      (taken ++ pool.history)) := by
  constructor
  · intro event member
    rcases List.mem_append.mp member with now | earlier
    · exact ⟨request, by simp [owner, (contract event now).1], (contract event now).2⟩
    · rcases kept.events event earlier with ⟨other, owned, holds⟩
      exact ⟨other, owner_append owned _ _ _, holds⟩
  · intro index other rest found
    by_cases old : index < pool.entries.length
    · rw [List.getElem?_append_left old] at found
      exact kept.underWay index other rest found
    · rw [List.getElem?_append_right (by omega)] at found
      cases position : index - pool.entries.length with
      | zero =>
          rw [position] at found
          cases found
          exact uses
      | succ rest =>
          rw [position] at found
          cases found

private theorem kept_move {pool next : Pool interface Request Outcome}
    {choice : Move Request} (kept : Kept Contract pool)
    (started : ∀ request, choice = .start request →
      (handle request).Uses fun operation => ∀ process before result after,
        Contract request ⟨process, before, operation, result, after⟩)
    (moved : pool.move handle choice = some next) : Kept Contract next := by
  rcases move_cases moved with ⟨request, made, rfl⟩ |
    ⟨index, request, operation, rest, result, after, -, found, -, rfl⟩
  · exact kept_append kept pool.shared [] request (handle request) (by simp)
      (started request made)
  · have current := kept.underWay index request _ found
    have bound := (List.getElem?_eq_some_iff.mp found).1
    constructor
    · intro event member
      rcases List.mem_cons.mp member with rfl | earlier
      · exact ⟨request, (owner_operated found _ _ _ _ _).trans (owner_of_entry found),
          current.1 _ _ _ _⟩
      · rcases kept.events event earlier with ⟨other, owned, holds⟩
        exact ⟨other, (owner_operated found _ _ _ _ _).trans owned, holds⟩
    · intro position other process foundOther
      by_cases here : index = position
      · subst here
        simp only [operated, List.getElem?_set_self bound, Option.some.injEq,
          Prod.mk.injEq] at foundOther
        rcases foundOther with ⟨rfl, rfl⟩
        exact current.2 result
      · simp only [operated, List.getElem?_set_ne here] at foundOther
        exact kept.underWay position other process foundOther

/-- A turn keeps the contracts when the requests handled at once keep theirs, and
those taken step by step cannot break theirs. -/
theorem kept_turn {stepwise : Request → Prop}
    (atomic : ∀ request index faults state history outcome after later,
      (handle request).execute index faults state history =
        some (outcome, after, later) →
      ∃ taken, later = taken ++ history ∧ ∀ event ∈ taken,
        event.process = index ∧ Contract request event)
    (single : ∀ request, stepwise request → (handle request).Uses fun operation =>
      ∀ process before result after,
        Contract request ⟨process, before, operation, result, after⟩)
    {pool next : Pool interface Request Outcome} {choice : Turn Request}
    (kept : Kept Contract pool)
    (allowed : ∀ request, choice = .move (.start request) → stepwise request)
    (turned : pool.turn handle choice = some next) : Kept Contract next := by
  cases choice with
  | move choice =>
      exact kept_move kept (fun request made => single request (allowed request (by
        rw [made]))) turned
  | atomically request faults =>
      rcases turn_atomically turned with ⟨outcome, executed, entries⟩
      rcases atomic request pool.entries.length faults pool.shared pool.history
        outcome next.shared next.history executed with ⟨taken, history, contract⟩
      have appended := kept_append kept next.shared taken request (.done outcome)
        contract trivial
      rw [← history, ← entries] at appended
      exact appended

end Contract

theorem taken_of_run {allowed : Request → interface.Operation → Prop}
    (uses : ∀ request, (handle request).Uses (allowed request)) {shared : interface.State}
    {final : Pool interface Request Outcome} {moves : List (Move Request)}
    (reached : run (move handle) (initial shared) moves = some final) :
    ∀ event ∈ final.history, ∃ request, final.owner event.process = some request ∧
      allowed request event.operation := by
  have kept : Kept (fun request event => allowed request event.operation) final := by
    refine invariant _ (fun pool choice next kept moved => ?_) (kept_initial shared) reached
    exact kept_move kept (fun request _ => (uses request).mono
      fun operation holds _ _ _ _ => holds) moved
  exact kept.events

theorem allowed_of_run {allowed : interface.Operation → Prop}
    (uses : ∀ request, (handle request).Uses allowed) {shared : interface.State}
    {final : Pool interface Request Outcome} {moves : List (Move Request)}
    (reached : run (move handle) (initial shared) moves = some final) :
    ∀ event ∈ final.history, allowed event.operation := by
  intro event member
  rcases taken_of_run uses reached event member with ⟨request, -, holds⟩
  exact holds

end Pool

end Concurrency
