import Loontail.Network.Evolution
import Loontail.Network.RelayProtocol

/-! # How often a guest ticket is passed

A guest connection passes its ticket when the consuming statement, which follows
the check, succeeds: the number of rows it changed is not looked at. -/

namespace Loontail

open Concurrency Relational

def passesTicket (ticketId : Uuid) : Event network → Bool
  | ⟨_, _, .statement (.relay (.consumeTicket id)), .ok _, _⟩ => id = ticketId
  | _ => false

def ticketPasses (ticketId : Uuid) (history : List (Event network)) : Nat :=
  history.countP (passesTicket ticketId)

/-- A check that finds a ticket valid is made only when no other connection is
between its own check of the ticket and its consumption. -/
def ChecksAlone (pool : Pool network Request (Except AppError Reply))
    (choice : Move Request) : Prop :=
  ∀ index ticketId tokenHash guestUserId, choice = .advance index →
    pool.upcoming index =
      some (.statement (.relay (.ticketValid ticketId tokenHash guestUserId))) →
    Sql.ticketValid pool.shared.clock ticketId tokenHash guestUserId
      pool.shared.database = true →
    ∀ other, other ≠ index →
      pool.upcoming other ≠ some (.statement (.relay (.consumeTicket ticketId)))

/-! ## The statements of a ticket -/

theorem RelayPhase.validated_of_consumes {phase : RelayPhase} {ticketId : Uuid}
    (allowed : phase.allows (.statement (.relay (.consumeTicket ticketId)))) :
    ∃ id relay, phase = .validated id relay ticketId := by
  cases phase <;> simp_all [allows, Operation.purpose]

theorem passesTicket_operation {index : Nat} {before after : Service}
    {operation : Operation} {result : operation.Result} {ticketId : Uuid}
    (passes : passesTicket ticketId ⟨index, before, operation, result, after⟩ = true) :
    ∃ count : Nat, operation = .statement (.relay (.consumeTicket ticketId)) ∧
      HEq result (.ok count : Except DatabaseError Nat) := by
  unfold passesTicket at passes
  split at passes
  · rename_i equal
    have same := of_decide_eq_true passes
    cases equal
    subst same
    exact ⟨_, rfl, HEq.rfl⟩
  · cases passes

theorem consumed_of_occurs {before after : Service} {ticketId : Uuid} {count : Nat}
    (occurs : network.Occurs before (.statement (.relay (.consumeTicket ticketId)))
      (.ok count) after) :
    ∀ ticket, after.database.joinTickets.find ticketId = some ticket →
      ticket.consumedAt.isSome = true := by
  rcases occurs_ok occurs with ⟨database, executed, rfl⟩
  cases executed
  intro ticket found
  simp only [Table.find_update, Option.map_eq_some_iff] at found
  rcases found with ⟨earlier, present, rfl⟩
  have key : earlier.id = ticketId := (Table.find_eq_some.mp present).2
  unfold Table.revise
  split
  · rfl
  · rename_i unselected
    cases consumed : earlier.consumedAt with
    | none => simp [key, consumed] at unselected
    | some time => rfl

theorem unconsumed_of_valid {before after : Service} {ticketId : Uuid}
    {tokenHash : String} {guestUserId : Option Uuid}
    (occurs : network.Occurs before
      (.statement (.relay (.ticketValid ticketId tokenHash guestUserId))) (.ok true) after) :
    Sql.ticketValid before.clock ticketId tokenHash guestUserId before.database = true ∧
    ∃ ticket, before.database.joinTickets.find ticketId = some ticket ∧
      ticket.consumedAt = none := by
  rcases occurs_ok occurs with ⟨database, executed, rfl⟩
  have valid : Sql.ticketValid before.clock ticketId tokenHash guestUserId
      before.database = true := (Prod.mk.inj (Except.ok.inj executed)).1
  refine ⟨valid, ?_⟩
  simp only [Sql.ticketValid, List.any_eq_true, Bool.and_eq_true, decide_eq_true_eq] at valid
  rcases valid with ⟨ticket, member, ⟨⟨⟨key, -⟩, -⟩, unconsumed⟩, -⟩
  exact ⟨ticket, Table.find_eq_some.mpr ⟨member, key⟩, unconsumed⟩

/-! ## The invariant -/

/-- A passed ticket is consumed or gone, and a validated connection is the only
one of its ticket, which no one has passed. -/
structure TicketsHeld (pool : Pool network Request (Except AppError Reply)) : Prop where
  once : ∀ ticketId, ticketPasses ticketId pool.history ≤ 1
  spent : ∀ ticketId, 0 < ticketPasses ticketId pool.history →
    ticketId ∈ pool.shared.database.joinTickets.issued ∧
    ∀ ticket, pool.shared.database.joinTickets.find ticketId = some ticket →
      ticket.consumedAt.isSome = true
  alone : ∀ index id relay ticketId,
    pool.phaseOf relayProtocol index = some (.validated id relay ticketId) →
    ticketId ∈ pool.shared.database.joinTickets.issued ∧
    ticketPasses ticketId pool.history = 0 ∧
    ∀ other id relay, pool.phaseOf relayProtocol other =
      some (.validated id relay ticketId) → other = index

private theorem ticketPasses_other {event : Event network} {ticketId : Uuid}
    (other : passesTicket ticketId event = false) (history : List (Event network)) :
    ticketPasses ticketId (event :: history) = ticketPasses ticketId history := by
  simp [ticketPasses, other]

private theorem initial_not_validated (request : Request) (id : Uuid)
    (relay : RelaySession) (ticketId : Uuid) :
    relayProtocol.initial request ≠ .validated id relay ticketId := by
  cases request <;> exact nofun

private theorem spent_of_evolves {old new : Database} (evolves : old.Evolves new)
    {ticketId : Uuid} (issued : ticketId ∈ old.joinTickets.issued)
    (spent : ∀ ticket, old.joinTickets.find ticketId = some ticket →
      ticket.consumedAt.isSome = true) :
    ∀ ticket, new.joinTickets.find ticketId = some ticket →
      ticket.consumedAt.isSome = true := by
  intro ticket found
  rcases evolves.joinTickets.find (fun _ _ revised => revised.id) issued found with
    ⟨earlier, present, revised⟩
  exact revised.consumed (spent earlier present)

theorem TicketsHeld.move {state : AppState}
    {pool next : Pool network Request (Except AppError Reply)} {choice : Move Request}
    (held : TicketsHeld pool)
    (obeys : pool.Obeys relayProtocol fun _ phase => phase.ending)
    (alone : ChecksAlone pool choice)
    (moved : pool.move (handle state) choice = some next) : TicketsHeld next := by
  rcases Pool.move_phases obeys moved with ⟨request, -, shared, history, phases⟩ |
    ⟨index, phase, operation, result, after, made, upcoming, current, allowed, occurs,
      shared, history, phases⟩
  · have same : ∀ index id relay ticketId,
        next.phaseOf relayProtocol index = some (.validated id relay ticketId) →
        pool.phaseOf relayProtocol index = some (.validated id relay ticketId) := by
      intro index id relay ticketId validated
      rw [phases] at validated
      split at validated
      · exact (initial_not_validated request id relay ticketId
          (Option.some.inj validated)).elim
      · exact validated
    constructor
    · rw [history]
      exact held.once
    · rw [history, shared]
      exact held.spent
    · intro index id relay ticketId validated
      rw [history, shared]
      rcases held.alone index id relay ticketId (same _ _ _ _ validated) with
        ⟨issued, unpassed, only⟩
      exact ⟨issued, unpassed, fun other id relay competing =>
        only other id relay (same _ _ _ _ competing)⟩
  · have evolves := occurs_evolves occurs
    have validating : ∀ ticketId,
        passesTicket ticketId ⟨index, pool.shared, operation, result, after⟩ = true →
        ∃ id relay, phase = .validated id relay ticketId := by
      intro ticketId passes
      rcases passesTicket_operation passes with ⟨-, rfl, -⟩
      exact RelayPhase.validated_of_consumes allowed
    have checked : ∀ id relay ticketId,
        relayProtocol.after phase operation result = .validated id relay ticketId →
        ticketId ∈ pool.shared.database.joinTickets.issued ∧
        ticketPasses ticketId pool.history = 0 ∧
        ∀ other id relay, other ≠ index →
          pool.phaseOf relayProtocol other ≠ some (.validated id relay ticketId) := by
      intro id relay ticketId validated
      rcases RelayPhase.validated_after validated with ⟨tokenHash, guestUserId, rfl, same⟩
      cases eq_of_heq same
      rcases unconsumed_of_valid occurs with ⟨valid, ticket, found, unconsumed⟩
      refine ⟨Table.issued_of_find found, ?_, fun other id relay different competing => ?_⟩
      · by_contra passed
        have consumed := (held.spent ticketId (by omega)).2 ticket found
        simp [unconsumed] at consumed
      · rcases made with made | ⟨-, fault⟩
        · rcases obeys.upcoming competing (fun _ => not_false) with ⟨next, pending, due⟩
          exact alone index ticketId tokenHash guestUserId made upcoming valid other
            different (due ▸ pending)
        · cases fault
    have counted : ∀ ticketId, passesTicket ticketId
        ⟨index, pool.shared, operation, result, after⟩ = true →
        ticketPasses ticketId pool.history = 0 ∧
        ticketPasses ticketId next.history = 1 := by
      intro ticketId passes
      rcases validating ticketId passes with ⟨id, relay, rfl⟩
      have unpassed := (held.alone index id relay ticketId current).2.1
      exact ⟨unpassed, by rw [history, ticketPasses, List.countP_cons, if_pos passes,
        ← ticketPasses, unpassed]⟩
    have uncounted : ∀ ticketId, passesTicket ticketId
        ⟨index, pool.shared, operation, result, after⟩ = false →
        ticketPasses ticketId next.history = ticketPasses ticketId pool.history :=
      fun ticketId other => by rw [history, ticketPasses_other other]
    constructor
    · intro ticketId
      cases passes : passesTicket ticketId ⟨index, pool.shared, operation, result, after⟩ with
      | true => exact (counted ticketId passes).2.le
      | false =>
          rw [uncounted ticketId passes]
          exact held.once ticketId
    · intro ticketId passed
      rw [shared]
      cases passes : passesTicket ticketId ⟨index, pool.shared, operation, result, after⟩ with
      | true =>
          rcases validating ticketId passes with ⟨id, relay, rfl⟩
          rcases passesTicket_operation passes with ⟨count, rfl, same⟩
          cases eq_of_heq same
          exact ⟨evolves.joinTickets.issued _
            (held.alone index id relay ticketId current).1, consumed_of_occurs occurs⟩
      | false =>
          rw [uncounted ticketId passes] at passed
          rcases held.spent ticketId passed with ⟨issued, spent⟩
          exact ⟨evolves.joinTickets.issued _ issued, spent_of_evolves evolves issued spent⟩
    · intro position id relay ticketId validated
      rw [phases] at validated
      rw [shared]
      split at validated
      · rename_i own
        subst own
        rcases checked id relay ticketId (Option.some.inj validated) with
          ⟨issued, unpassed, only⟩
        refine ⟨evolves.joinTickets.issued _ issued, ?_, fun other id relay competing => ?_⟩
        · rw [uncounted ticketId ?_, unpassed]
          by_contra passes
          rcases passesTicket_operation (by simpa using passes) with ⟨-, rfl, -⟩
          rcases RelayPhase.validated_after (Option.some.inj validated) with
            ⟨_, _, different, _⟩
          cases different
        · rw [phases] at competing
          split at competing
          · assumption
          · rename_i different
            exact (only other id relay different competing).elim
      · rename_i others
        rcases held.alone position id relay ticketId validated with ⟨issued, unpassed, only⟩
        refine ⟨evolves.joinTickets.issued _ issued, ?_, fun other id relay competing => ?_⟩
        · rw [uncounted ticketId ?_, unpassed]
          by_contra passes
          rcases validating ticketId (by simpa using passes) with ⟨id, relay, rfl⟩
          exact others (only index id relay current).symm
        · rw [phases] at competing
          split at competing
          · rename_i own
            subst own
            exact ((checked id relay ticketId (Option.some.inj competing)).2.2 position _ _
              others validated).elim
          · exact only other id relay competing


/-- While every check is made alone, a ticket is passed at most once. -/
theorem ticket_passed_once (state : AppState) (database : Database) (clock : Timestamp)
    {moves : List (Move Request)} {final : Pool network Request (Except AppError Reply)}
    (alone : Along (Pool.move (handle state)) ChecksAlone
      (.initial (.boot database clock)) moves)
    (reached : run (Pool.move (handle state)) (.initial (.boot database clock)) moves =
      some final) (ticketId : Uuid) : ticketPasses ticketId final.history ≤ 1 := by
  have start : TicketsHeld (.initial (.boot database clock)) := {
    once := fun _ => Nat.zero_le _
    spent := fun _ passed => (Nat.lt_irrefl 0 passed).elim
    alone := fun _ _ _ _ validated => nomatch validated }
  exact (Pool.invariant_of_protocol (handle_courses state)
    (fun pool choice next held obeys alone moved => held.move obeys alone moved) start alone
    reached).1.once ticketId

/-! ## Two connections with one ticket -/

theorem checksAlone_iff {pool : Pool network Request (Except AppError Reply)}
    {choice : Move Request} : ChecksAlone pool choice ↔
      match choice with
      | .advance index =>
          match pool.upcoming index with
          | some (.statement (.relay (.ticketValid ticketId tokenHash guestUserId))) =>
              Sql.ticketValid pool.shared.clock ticketId tokenHash guestUserId
                pool.shared.database = true →
              ∀ other ∈ List.range pool.entries.length, other ≠ index →
                pool.upcoming other ≠ some (.statement (.relay (.consumeTicket ticketId)))
          | _ => True
      | _ => True := by
  constructor
  · intro alone
    split
    · split
      · rename_i index _ ticketId tokenHash guestUserId pending
        intro valid other _ different
        exact alone index ticketId tokenHash guestUserId rfl pending valid other different
      · trivial
    · trivial
  · rintro alone index ticketId tokenHash guestUserId rfl pending valid other different competing
    simp only [pending] at alone
    refine alone valid other ?_ different competing
    rw [List.mem_range]
    by_contra beyond
    simp [Pool.upcoming, List.getElem?_eq_none (Nat.le_of_not_lt beyond)] at competing

instance : DecidableRel ChecksAlone := fun pool choice => by
  refine @decidable_of_iff' _ _ checksAlone_iff ?_
  split
  · split <;> infer_instance
  · infer_instance

def ticketDatabase : Database :=
  { Database.empty with
    joinTickets := {
      rows := [{ id := 1, userId := 2, worldSessionId := 3, tokenHash := "ticket",
                 expiresAt := 60, consumedAt := none, createdAt := 0 }]
      issued := [1]
      keysUnique := by decide
      slotsUnique := by decide
      keysIssued := by decide }
    relaySessions := {
      rows := [{ id := 4, worldSessionId := 3, hostUserId := 5, guestUserId := some 2,
                 joinTicketId := some 1, status := .pending, createdAt := 0,
                 closedAt := none }]
      issued := [4]
      keysUnique := by decide
      slotsUnique := by decide
      keysIssued := by decide } }

def plainState : AppState where
  config := { maxPlayersPerWorld := 5, heartbeatTimeout := 60, joinRequestTtl := 60,
              joinTicketTtl := 60, inviteTtl := 600 }
  hashToken := id

/-- The second connection presents the ticket when the first has passed it. -/
def checkConsumeCheck : List (Move Request) :=
  [.start (.relay 4 ⟨some "ticket", "guest"⟩), .advance 0, .advance 0, .advance 0,
   .start (.relay 4 ⟨some "ticket", "guest"⟩), .advance 1, .advance 1]

def refusesTicket (index : Nat) : Event network → Bool
  | ⟨process, _, .statement (.relay (.ticketValid ..)), .ok valid, _⟩ =>
      process = index && !valid
  | _ => false

theorem ticket_passed_once_in_turn :
    ∃ final, run (Pool.move (handle plainState)) (.initial (.boot ticketDatabase 0))
        checkConsumeCheck = some final ∧
      (0 < ticketPasses 1 final.history ∧ final.history.any (refusesTicket 1) = true) ∧
      ticketPasses 1 final.history ≤ 1 := by
  have presented : ((run (Pool.move (handle plainState)) (.initial (.boot ticketDatabase 0))
      checkConsumeCheck).map fun final => decide (
        0 < ticketPasses 1 final.history ∧ final.history.any (refusesTicket 1) = true)) =
      some true := by decide +kernel
  obtain ⟨final, reached, seen⟩ := Option.map_eq_some_iff.mp presented
  have alone : Along (Pool.move (handle plainState)) ChecksAlone
      (.initial (.boot ticketDatabase 0)) checkConsumeCheck := by decide +kernel
  exact ⟨final, reached, of_decide_eq_true seen,
    ticket_passed_once plainState ticketDatabase 0 alone reached 1⟩

/-- Both connections check the ticket before either consumes it. -/
def checkCheckConsumeConsume : List (Move Request) :=
  [.start (.relay 4 ⟨some "ticket", "guest"⟩), .start (.relay 4 ⟨some "ticket", "guest"⟩),
   .advance 0, .advance 0, .advance 1, .advance 1, .advance 0, .advance 1]

/-- Two connections can pass one ticket. -/
theorem ticket_not_single_use :
    ¬∀ (state : AppState) (database : Database) (clock : Timestamp)
      (moves : List (Move Request)) (final : Pool network Request (Except AppError Reply)),
      run (Pool.move (handle state)) (.initial (.boot database clock)) moves = some final →
      ∀ ticketId, ticketPasses ticketId final.history ≤ 1 := by
  intro single
  have twice : ((run (Pool.move (handle plainState)) (.initial (.boot ticketDatabase 0))
      checkCheckConsumeConsume).map fun final => ticketPasses 1 final.history) = some 2 := by
    decide
  rcases Option.map_eq_some_iff.mp twice with ⟨final, reached, passes⟩
  have once := single plainState ticketDatabase 0 checkCheckConsumeConsume final reached 1
  omega

end Loontail
