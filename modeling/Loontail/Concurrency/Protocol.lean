import Loontail.Concurrency.Process
import Loontail.Concurrency.Pool

/-! # Protocols

A protocol describes a process by the phase it is in: which operations the phase
allows, and which phase each result leads to. A process that follows its
protocol can be replaced by its phase in an invariant of the pool, and the phase
is read off the history. -/

namespace Concurrency

structure Protocol (interface : Interface) (Request : Type) where
  Phase : Type
  initial : Request → Phase
  allows : Phase → interface.Operation → Prop
  after : Phase → (operation : interface.Operation) →
    interface.Result operation → Phase

variable {interface : Interface} {Request Outcome : Type}

/-- The logic of a protocol: the phase says what is allowed, and each result
leads to the next phase. -/
@[reducible] def Protocol.logic (protocol : Protocol interface Request) :
    Logic interface where
  Situation := protocol.Phase
  admits := fun phase operation post => protocol.allows phase operation ∧
    ∀ result, post result (protocol.after phase operation result)
  mono := fun implies admitted =>
    ⟨admitted.1, fun result => implies result _ (admitted.2 result)⟩

@[simp] theorem Protocol.logic_admits {protocol : Protocol interface Request}
    {phase : protocol.Phase} {operation : interface.Operation}
    {post : interface.Result operation → protocol.Phase → Prop} :
    protocol.logic.admits phase operation post ↔ protocol.allows phase operation ∧
      ∀ result, post result (protocol.after phase operation result) := Iff.rfl

theorem Protocol.ignores {protocol : Protocol interface Request}
    {phase : protocol.Phase} {operation : interface.Operation}
    (allowed : protocol.allows phase operation)
    (unchanged : ∀ result, protocol.after phase operation result = phase) :
    protocol.logic.Ignores phase operation := by
  intro post holds
  refine ⟨allowed, fun result => ?_⟩
  rw [unchanged result]
  exact holds result

theorem Protocol.meets_of_uses {protocol : Protocol interface Request}
    {allowed : interface.Operation → Prop}
    (always : ∀ phase operation, allowed operation → protocol.allows phase operation)
    {process : Process interface Outcome} (uses : process.Uses allowed)
    (phase : protocol.Phase) :
    process.Meets protocol.logic (fun _ _ => True) phase := by
  induction process generalizing phase with
  | done outcome => trivial
  | call operation next induction =>
      exact ⟨always phase operation uses.1, fun result => induction result (uses.2 result) _⟩

def Protocol.phase (protocol : Protocol interface Request) (request : Request)
    (index : Nat) (history : List (Event interface)) : protocol.Phase :=
  history.foldr
    (fun event phase =>
      if event.process = index then
        protocol.after phase event.operation event.result
      else phase)
    (protocol.initial request)

namespace Protocol

variable {protocol : Protocol interface Request}

theorem phase_cons_own (request : Request) (event : Event interface)
    (history : List (Event interface)) :
    protocol.phase request event.process (event :: history) =
      protocol.after (protocol.phase request event.process history)
        event.operation event.result := by
  simp [phase]

theorem phase_cons_other (request : Request) {index : Nat}
    (event : Event interface) (different : event.process ≠ index)
    (history : List (Event interface)) :
    protocol.phase request index (event :: history) =
      protocol.phase request index history := by
  simp [phase, different]

theorem phase_of_no_event (request : Request) {index : Nat}
    {history : List (Event interface)}
    (none : ∀ event ∈ history, event.process ≠ index) :
    protocol.phase request index history = protocol.initial request := by
  induction history with
  | nil => rfl
  | cons event rest induction =>
      rw [phase_cons_other request event (none event (by simp))]
      exact induction fun other member => none other (by simp [member])

theorem phase_induction {holds : protocol.Phase → Prop} {request : Request}
    (initial : holds (protocol.initial request))
    (kept : ∀ phase operation result, holds phase →
      holds (protocol.after phase operation result))
    (index : Nat) (history : List (Event interface)) :
    holds (protocol.phase request index history) := by
  induction history with
  | nil => exact initial
  | cons event rest induction =>
      by_cases own : event.process = index
      · subst own
        rw [phase_cons_own]
        exact kept _ _ _ induction
      · rw [phase_cons_other request event own]
        exact induction

/-- What a phase has and the initial one had not, an event of the process brought
about. -/
theorem phase_milestone {holds : protocol.Phase → Prop} {request : Request} {index : Nat}
    {history : List (Event interface)} (initial : ¬holds (protocol.initial request))
    (reached : holds (protocol.phase request index history)) :
    ∃ event older, event :: older <:+ history ∧ event.process = index ∧
      ¬holds (protocol.phase request index older) ∧
      holds (protocol.after (protocol.phase request index older) event.operation
        event.result) := by
  induction history with
  | nil => exact (initial reached).elim
  | cons event rest induction =>
      by_cases already : holds (protocol.phase request index rest)
      · obtain ⟨earlier, older, suffix, milestone⟩ := induction already
        exact ⟨earlier, older, suffix.trans (List.suffix_cons _ _), milestone⟩
      · by_cases own : event.process = index
        · subst own
          rw [phase_cons_own] at reached
          exact ⟨event, rest, List.suffix_refl _, rfl, already, reached⟩
        · rw [phase_cons_other request event own] at reached
          exact (already reached).elim

end Protocol

namespace Pool

def Recorded (pool : Pool interface Request Outcome) : Prop :=
  ∀ event ∈ pool.history, event.process < pool.entries.length

/-- Every process follows the protocol from the phase its events led to. -/
def Obeys (pool : Pool interface Request Outcome)
    (protocol : Protocol interface Request)
    (ending : Outcome → protocol.Phase → Prop) : Prop :=
  pool.Recorded ∧ ∀ index request (process : Process interface Outcome),
    pool.entries[index]? = some (request, process) →
      process.Meets protocol.logic ending (protocol.phase request index pool.history)

variable {handle : Request → Process interface Outcome}
variable {protocol : Protocol interface Request}
variable {ending : Outcome → protocol.Phase → Prop}

theorem initial_obeys (shared : interface.State) :
    (initial shared : Pool interface Request Outcome).Obeys protocol ending :=
  ⟨fun _ member => (List.not_mem_nil member).elim,
    fun _ _ _ found => by simp [initial] at found⟩

theorem Recorded.move {pool next : Pool interface Request Outcome}
    {choice : Move Request} (recorded : pool.Recorded)
    (moved : pool.move handle choice = some next) : next.Recorded := by
  rcases move_cases moved with ⟨request, -, rfl⟩ |
    ⟨index, request, operation, rest, result, after, -, found, -, rfl⟩
  · intro event member
    have bound := recorded event member
    simp only [started, List.length_append, List.length_singleton]
    omega
  · intro event member
    simp only [operated, List.length_set]
    rcases List.mem_cons.mp member with rfl | member
    · exact (List.getElem?_eq_some_iff.mp found).1
    · exact recorded event member

theorem Obeys.move {pool next : Pool interface Request Outcome}
    {choice : Move Request}
    (programs : ∀ request,
      (handle request).Meets protocol.logic ending (protocol.initial request))
    (obeys : pool.Obeys protocol ending)
    (moved : pool.move handle choice = some next) :
    next.Obeys protocol ending := by
  refine ⟨obeys.1.move moved, ?_⟩
  rcases move_cases moved with ⟨request, -, rfl⟩ |
    ⟨index, request, operation, rest, result, after, -, found, -, rfl⟩
  · intro other otherRequest process foundOther
    simp only [started] at foundOther ⊢
    by_cases old : other < pool.entries.length
    · rw [List.getElem?_append_left old] at foundOther
      exact obeys.2 other otherRequest process foundOther
    · rw [List.getElem?_append_right (by omega)] at foundOther
      have fresh : protocol.phase otherRequest other pool.history =
          protocol.initial otherRequest :=
        Protocol.phase_of_no_event _ fun event member same => by
          have bound := obeys.1 event member
          omega
      rw [fresh]
      rcases List.getElem?_eq_some_iff.mp foundOther with ⟨bound, equal⟩
      have position : other - pool.entries.length = 0 := by
        simp only [List.length_singleton] at bound
        omega
      simp only [position, List.getElem_cons_zero, Prod.mk.injEq] at equal
      rcases equal with ⟨rfl, rfl⟩
      exact programs request
  · intro other otherRequest process foundOther
    simp only [operated] at foundOther ⊢
    have current := obeys.2 index request _ found
    by_cases same : index = other
    · subst other
      have bound := (List.getElem?_eq_some_iff.mp found).1
      simp only [List.getElem?_set_self bound, Option.some.injEq,
        Prod.mk.injEq] at foundOther
      rcases foundOther with ⟨rfl, rfl⟩
      rw [Protocol.phase_cons_own request ⟨index, pool.shared, operation, result, after⟩]
      exact current.2 result
    · rw [List.getElem?_set_ne same] at foundOther
      rw [Protocol.phase_cons_other otherRequest
        ⟨index, pool.shared, operation, result, after⟩ same]
      exact obeys.2 other otherRequest process foundOther

theorem Obeys.allows {pool : Pool interface Request Outcome} {index : Nat}
    {request : Request} {operation : interface.Operation}
    {rest : interface.Result operation → Process interface Outcome}
    (obeys : pool.Obeys protocol ending)
    (found : pool.entries[index]? = some (request, .call operation rest)) :
    protocol.allows (protocol.phase request index pool.history) operation :=
  (obeys.2 index request _ found).1

/-! ## Phases of a pool

Seen through a protocol, a pool is its shared state, its history and the phases
of its processes; a move changes one phase. -/

def phaseOf (pool : Pool interface Request Outcome)
    (protocol : Protocol interface Request) (index : Nat) : Option protocol.Phase :=
  (pool.owner index).map fun request => protocol.phase request index pool.history

theorem Obeys.upcoming {pool : Pool interface Request Outcome} {index : Nat}
    {phase : protocol.Phase} (obeys : pool.Obeys protocol ending)
    (current : pool.phaseOf protocol index = some phase)
    (owing : ∀ outcome, ¬ending outcome phase) :
    ∃ operation, pool.upcoming index = some operation ∧
      protocol.allows phase operation := by
  rcases Option.map_eq_some_iff.mp current with ⟨request, owned, rfl⟩
  rcases Option.map_eq_some_iff.mp owned with ⟨⟨request, process⟩, found, rfl⟩
  have meets := obeys.2 index request process found
  cases process with
  | done outcome => exact (owing outcome meets).elim
  | call operation rest => exact ⟨operation, by simp [Pool.upcoming, found,
      Process.upcoming], meets.1⟩

theorem move_phases {pool next : Pool interface Request Outcome} {choice : Move Request}
    (obeys : pool.Obeys protocol ending)
    (moved : pool.move handle choice = some next) :
    (∃ request, choice = .start request ∧ next.shared = pool.shared ∧
      next.history = pool.history ∧ ∀ other, next.phaseOf protocol other =
        if other = pool.entries.length then some (protocol.initial request)
        else pool.phaseOf protocol other) ∨
    ∃ index phase operation result after,
      (choice = .advance index ∨
        choice = .fail index ∧ interface.fault operation = some result) ∧
      pool.upcoming index = some operation ∧
      pool.phaseOf protocol index = some phase ∧ protocol.allows phase operation ∧
      interface.Occurs pool.shared operation result after ∧ next.shared = after ∧
      next.history = ⟨index, pool.shared, operation, result, after⟩ :: pool.history ∧
      ∀ other, next.phaseOf protocol other =
        if other = index then some (protocol.after phase operation result)
        else pool.phaseOf protocol other := by
  rcases move_cases moved with ⟨request, made, rfl⟩ |
    ⟨index, request, operation, rest, result, after, made, found, occurs, rfl⟩
  · refine .inl ⟨request, made, rfl, rfl, fun other => ?_⟩
    rw [phaseOf, owner_started]
    split
    · rename_i last
      rw [Option.map_some]
      refine congrArg some (Protocol.phase_of_no_event _ fun event member same => ?_)
      have bound := obeys.1 event member
      omega
    · rfl
  · refine .inr ⟨index, protocol.phase request index pool.history, operation, result,
      after, made, by simp [Pool.upcoming, found, Process.upcoming], ?_,
      obeys.allows found, occurs, rfl, rfl, fun other => ?_⟩
    · rw [phaseOf, owner_of_entry found, Option.map_some]
    · rw [phaseOf, owner_operated found]
      split
      · rename_i same
        subst same
        rw [owner_of_entry found, Option.map_some]
        exact congrArg some (Protocol.phase_cons_own request
          ⟨other, pool.shared, operation, result, after⟩ pool.history)
      · rename_i different
        refine congrArg (fun phase => (pool.owner other).map phase) (funext fun one => ?_)
        exact Protocol.phase_cons_other one
          ⟨index, pool.shared, operation, result, after⟩ (Ne.symm different) _

/-- Invariants may use the phases: what every move preserves, given that
processes follow the protocol, holds along a run. -/
theorem invariant_of_protocol {Inv : Pool interface Request Outcome → Prop}
    {condition : Pool interface Request Outcome → Move Request → Prop}
    (programs : ∀ request,
      (handle request).Meets protocol.logic ending (protocol.initial request))
    (preserved : ∀ pool choice next, Inv pool → pool.Obeys protocol ending →
      condition pool choice → pool.move handle choice = some next → Inv next)
    {shared : interface.State} {final : Pool interface Request Outcome}
    {moves : List (Move Request)} (holds : Inv (initial shared))
    (along : Along (move handle) condition (initial shared) moves)
    (reached : run (move handle) (initial shared) moves = some final) :
    Inv final ∧ final.Obeys protocol ending := by
  refine invariant_along (fun pool => Inv pool ∧ pool.Obeys protocol ending)
    ?_ ⟨holds, initial_obeys shared⟩ along reached
  rintro pool choice next ⟨holds, obeys⟩ allowed moved
  exact ⟨preserved pool choice next holds obeys allowed moved, obeys.move programs moved⟩

theorem obeys_of_run
    (programs : ∀ request,
      (handle request).Meets protocol.logic ending (protocol.initial request))
    {shared : interface.State} {final : Pool interface Request Outcome}
    {moves : List (Move Request)}
    (reached : run (move handle) (initial shared) moves = some final) :
    final.Obeys protocol ending := by
  refine invariant (fun pool => pool.Obeys protocol ending) ?_ (initial_obeys shared) reached
  exact fun pool choice next obeys moved => obeys.move programs moved

/-- Every event was allowed in the phase that the history before it had led to. -/
theorem allowed_in_phase
    (programs : ∀ request,
      (handle request).Meets protocol.logic ending (protocol.initial request))
    {shared : interface.State} {final : Pool interface Request Outcome}
    {moves : List (Move Request)}
    (reached : run (move handle) (initial shared) moves = some final)
    {event : Event interface} {older : List (Event interface)}
    (suffix : event :: older <:+ final.history) :
    ∃ request, final.owner event.process = some request ∧
      protocol.allows (protocol.phase request event.process older) event.operation := by
  refine (invariant (fun pool : Pool interface Request Outcome =>
      (∀ event older, event :: older <:+ pool.history → ∃ request,
        pool.owner event.process = some request ∧
        protocol.allows (protocol.phase request event.process older) event.operation) ∧
      pool.Obeys protocol ending) ?_ ⟨?_, initial_obeys shared⟩ reached).1 event older suffix
  · rintro pool choice next ⟨holds, obeys⟩ moved
    refine ⟨fun event older suffix => ?_, obeys.move programs moved⟩
    rcases move_cases moved with ⟨request, -, rfl⟩ |
      ⟨index, request, operation, rest, result, after, -, found, -, rfl⟩
    · rcases holds event older suffix with ⟨owner, owned, allowed⟩
      exact ⟨owner, owner_append owned _ _ _, allowed⟩
    · rcases List.suffix_cons_iff.mp suffix with newest | within
      · cases newest
        exact ⟨request, (owner_operated found _ _ _ _ _).trans (owner_of_entry found),
          obeys.allows found⟩
      · rcases holds event older within with ⟨owner, owned, allowed⟩
        exact ⟨owner, (owner_operated found _ _ _ _ _).trans owned, allowed⟩
  · intro event older suffix
    simp [initial] at suffix

end Pool

end Concurrency
