import Loontail.Guarantees.PlayerAccounting

/-! # Pairing relay sockets

A socket that a connection parks is in one place at a time, and a tunnel joins
the host and the guest of one relay session. The history shows who parked and
took what, and what each connection proved before it had a socket. -/

namespace Loontail

open Concurrency

/-- The event passes the socket to `park`. -/
def parks (socket : SocketId) : Event network → Bool
  | ⟨_, _, .relay (.park _ _ peer), _, _⟩ => peer.socket = socket
  | _ => false

/-- The event is a `park` that hands the socket back. -/
def handsBack (socket : SocketId) : Event network → Bool
  | ⟨_, _, .relay (.park _ _ _), some peer, _⟩ => peer.socket = socket
  | _ => false

/-- The event is a `take` or a `remove_waiting` that returns the socket. -/
def handsOut (socket : SocketId) : Event network → Bool
  | ⟨_, _, .relay (.take _ _), some peer, _⟩ => peer.socket = socket
  | ⟨_, _, .relay (.removeWaiting _), some peer, _⟩ => peer.socket = socket
  | _ => false

def parkings (socket : SocketId) (history : List (Event network)) : Nat :=
  history.countP (parks socket)

def places (socket : SocketId) (hub : RelayHub) (history : List (Event network)) : Nat :=
  hub.holds socket + history.countP (handsBack socket) + history.countP (handsOut socket)

/-- The connection read the relay session and showed that it is its host, by the
session of a user, or its guest, by the ticket. -/
def Authenticated (history : List (Event network)) (process : Nat) (id : Uuid)
    (tokenHash : String) (role : RelayRole) : Prop :=
  ∃ relay : RelaySession,
    Answered history process (.statement (.relay (.select id))) (.ok (some relay)) ∧
    match role with
    | .host => ∃ user : User, user.id = relay.hostUserId ∧
        Answered history process (.statement (.relay (.userFromToken tokenHash)))
          (.ok (some user))
    | .guest => ∃ ticketId, relay.joinTicketId = some ticketId ∧
        Answered history process
          (.statement (.relay (.ticketValid ticketId tokenHash relay.guestUserId))) (.ok true)

/-- The socket belongs to a connection that named the relay session and proved
the role with the token it presented. -/
def Proved (state : AppState) (pool : Pool network Request (Except AppError Reply))
    (id : Uuid) (role : RelayRole) (socket : SocketId) : Prop :=
  ∃ (process : Nat) (params : Network.Relay.RelayQuery) (token : String),
    pool.owner process = some (.relay id params) ∧ params.token = some token ∧
    Authenticated pool.history process id (state.hashToken token) role ∧
    Answered pool.history process (.relay .upgrade) socket

def Paired (state : AppState) (pool : Pool network Request (Except AppError Reply))
    (id : Uuid) (left right : SocketId) : Prop :=
  Proved state pool id .host left ∧ Proved state pool id .guest right ∨
    Proved state pool id .guest left ∧ Proved state pool id .host right

/-- A parked socket is in exactly one place, and the tunnels join the parties of
one relay session: never two of one role, never those of two sessions. -/
structure RelayPairs (state : AppState)
    (pool : Pool network Request (Except AppError Reply)) : Prop where
  placed : ∀ socket, 0 < parkings socket pool.history →
    places socket pool.shared.realtime.relay pool.history = 1
  paired : ∀ process id left right,
    Answered pool.history process (.relay (.pipe id left right)) () →
      Paired state pool id left right
  apart : ∀ process id left right,
    Answered pool.history process (.relay (.pipe id left right)) () →
      ∀ leftId leftRole rightId rightRole, Proved state pool leftId leftRole left →
        Proved state pool rightId rightRole right → leftId = rightId ∧ leftRole ≠ rightRole

/-! ## Where a socket is -/

/-- Each event moves a parked socket from one place to another. -/
theorem places_event {event : Event network} (happened : event.Happened)
    (socket : SocketId) :
    event.before.realtime.relay.holds socket + (parks socket event).toNat =
      event.after.realtime.relay.holds socket + (handsBack socket event).toNat +
        (handsOut socket event).toNat := by
  rcases event with ⟨process, before, operation, result, after⟩
  have occurs : network.Occurs before operation result after := happened
  cases operation with
  | relay operation =>
      have performed := occurs_relay occurs
      cases operation with
      | take id role =>
          have taken := occurs_take occurs
          cases result with
          | none =>
              rw [(RelayHub.take_none taken).1]
              rfl
          | some peer =>
              rw [RelayHub.holds_take_some taken socket]
              by_cases own : peer.socket = socket <;> simp [parks, handsBack, handsOut, own]
      | park id role peer =>
          have parked := occurs_park occurs
          cases result with
          | none =>
              rw [RelayHub.holds_park_accepted parked socket]
              by_cases own : peer.socket = socket <;> simp [parks, handsBack, handsOut, own]
          | some back =>
              rcases RelayHub.park_refused parked with ⟨rfl, unchanged, -⟩
              rw [unchanged]
              simp [parks, handsBack, handsOut]
      | removeWaiting id =>
          have removed := occurs_removeWaiting occurs
          cases result with
          | none =>
              rw [RelayHub.removeWaiting_none removed]
              rfl
          | some peer =>
              rw [RelayHub.holds_removeWaiting_some removed socket]
              by_cases own : peer.socket = socket <;> simp [parks, handsBack, handsOut, own]
      | _ =>
          cases performed
          rfl
  | _ =>
      have untouched : after.realtime.relay = before.realtime.relay :=
        (occurs_relay_untouched (by nofun) occurs).1
      rw [untouched]
      rfl

theorem places_of_trace {start final : Service} {history : List (Event network)}
    (traced : Traced start history final) (vacant : start.realtime.relay = .new)
    (socket : SocketId) :
    places socket final.realtime.relay history = parkings socket history := by
  refine @Traced.invariant network _ _ _
    (fun history service => places socket service.realtime.relay history =
      parkings socket history) traced ?_ ?_
  · simp [places, parkings, vacant, RelayHub.holds, RelayHub.new]
  · intro event older _ happened balanced
    have moved := places_event happened socket
    simp only [places, parkings, List.countP_cons] at balanced ⊢
    have counted (fact : Bool) : fact.toNat = if fact = true then 1 else 0 := by
      cases fact <;> rfl
    simp only [counted] at moved
    omega

/-! ## What a connection has shown -/

theorem Authenticated.mono {history longer : List (Event network)} (within : history ⊆ longer)
    {process : Nat} {id : Uuid} {tokenHash : String} {role : RelayRole}
    (authenticated : Authenticated history process id tokenHash role) :
    Authenticated longer process id tokenHash role := by
  rcases authenticated with ⟨relay, selected, proof⟩
  refine ⟨relay, selected.mono within, ?_⟩
  cases role with
  | host =>
      rcases proof with ⟨user, host, known⟩
      exact ⟨user, host, known.mono within⟩
  | guest =>
      rcases proof with ⟨ticketId, named, valid⟩
      exact ⟨ticketId, named, valid.mono within⟩

theorem Authenticated.later {event : Event network} {history : List (Event network)}
    {process : Nat} {id : Uuid} {tokenHash : String} {role : RelayRole}
    (authenticated : Authenticated history process id tokenHash role) :
    Authenticated (event :: history) process id tokenHash role :=
  authenticated.mono (List.subset_cons_self event history)

def Presented (history : List (Event network)) (id : Uuid) (role : RelayRole)
    (socket : SocketId) : Prop :=
  ∃ process tokenHash, Authenticated history process id tokenHash role ∧
    Answered history process (.relay .upgrade) socket

theorem Presented.mono {history longer : List (Event network)} (within : history ⊆ longer)
    {id : Uuid} {role : RelayRole} {socket : SocketId}
    (presented : Presented history id role socket) : Presented longer id role socket := by
  rcases presented with ⟨process, tokenHash, authenticated, upgraded⟩
  exact ⟨process, tokenHash, authenticated.mono within, upgraded.mono within⟩

theorem Presented.later {event : Event network} {history : List (Event network)} {id : Uuid}
    {role : RelayRole} {socket : SocketId} (presented : Presented history id role socket) :
    Presented (event :: history) id role socket :=
  presented.mono (List.subset_cons_self event history)

/-- Every waiting socket was presented in the role it waits in. -/
def Vouched (history : List (Event network)) (hub : RelayHub) : Prop :=
  ∀ id role peer, hub.waiting.lookup id = some (role, peer) →
    Presented history id role peer.socket

namespace RelayPhase

def Holds (history : List (Event network)) (process : Nat) (visit : RelayVisit) : Prop :=
  (∃ tokenHash, Authenticated history process visit.id tokenHash visit.role) ∧
    Answered history process (.relay .upgrade) visit.socket

def Shown (history : List (Event network)) (process : Nat) : RelayPhase → Prop
  | loaded id relay =>
      Answered history process (.statement (.relay (.select id))) (.ok (some relay))
  | validated id relay ticketId =>
      Answered history process (.statement (.relay (.select id))) (.ok (some relay)) ∧
        relay.joinTicketId = some ticketId ∧ ∃ tokenHash, Answered history process
          (.statement (.relay (.ticketValid ticketId tokenHash relay.guestUserId))) (.ok true)
  | authenticated id _ role => ∃ tokenHash, Authenticated history process id tokenHash role
  | connected visit => Holds history process visit
  | missed visit => Holds history process visit
  | paired visit peer => Holds history process visit ∧
      ∃ role, role ≠ visit.role ∧ Presented history visit.id role peer.socket
  | tunnelling visit peer => Holds history process visit ∧
      ∃ role, role ≠ visit.role ∧ Presented history visit.id role peer.socket
  | _ => True

variable {history : List (Event network)} {event : Event network} {process : Nat}

theorem Holds.later {visit : RelayVisit} (holds : Holds history process visit) :
    Holds (event :: history) process visit := by
  rcases holds with ⟨⟨tokenHash, authenticated⟩, upgraded⟩
  exact ⟨⟨tokenHash, authenticated.later⟩, upgraded.later⟩

theorem Shown.later {phase : RelayPhase} (shown : phase.Shown history process) :
    phase.Shown (event :: history) process := by
  cases phase with
  | loaded id relay => exact Answered.later shown
  | validated id relay ticketId =>
      rcases shown with ⟨selected, named, tokenHash, valid⟩
      exact ⟨selected.later, named, tokenHash, valid.later⟩
  | authenticated id relay role =>
      rcases shown with ⟨tokenHash, authenticated⟩
      exact ⟨tokenHash, authenticated.later⟩
  | connected visit => exact Holds.later shown
  | missed visit => exact Holds.later shown
  | paired visit peer =>
      rcases shown with ⟨holds, role, opposite, presented⟩
      exact ⟨holds.later, role, opposite, presented.later⟩
  | tunnelling visit peer =>
      rcases shown with ⟨holds, role, opposite, presented⟩
      exact ⟨holds.later, role, opposite, presented.later⟩
  | _ => trivial

theorem after_tunnelling (visit : RelayVisit) (peer : PendingPeer) (operation : Operation)
    (result : operation.Result) :
    (tunnelling visit peer).after operation result = tunnelling visit peer ∨
      (tunnelling visit peer).after operation result = released visit := by
  unfold after
  split <;> simp_all

theorem shown_after {phase : RelayPhase} {operation : Operation} {result : operation.Result}
    {before after : Service} (shown : phase.Shown history process)
    (allowed : phase.allows operation)
    (occurs : network.Occurs before operation result after)
    (vouched : Vouched history before.realtime.relay) :
    (phase.after operation result).Shown
      (⟨process, before, operation, result, after⟩ :: history) process := by
  have now : @Answered network (⟨process, before, operation, result, after⟩ :: history)
      process operation result := ⟨before, after, List.mem_cons_self⟩
  cases phase with
  | arriving id =>
      cases allowed
      cases result with
      | error failure => trivial
      | ok row =>
          cases row with
          | none => trivial
          | some relay => exact now
  | loaded id relay =>
      rcases allowed with ⟨tokenHash, rfl⟩ | ⟨ticketId, tokenHash, named, rfl⟩
      · cases result with
        | error failure => trivial
        | ok row =>
            cases row with
            | none => trivial
            | some user =>
                change (afterUser id relay user).Shown _ _
                rcases afterUser_cases id relay user with ⟨host, next⟩ | next
                · rw [next]
                  exact ⟨tokenHash, relay, Answered.later shown, user, host,
                    now⟩
                · rw [next]
                  trivial
      · cases result with
        | error failure => trivial
        | ok valid =>
            cases valid with
            | false => trivial
            | true =>
                exact ⟨Answered.later shown, named, tokenHash, now⟩
  | validated id relay ticketId =>
      cases allowed
      cases result with
      | error failure => trivial
      | ok count =>
          rcases shown with ⟨selected, named, tokenHash, valid⟩
          exact ⟨tokenHash, relay, selected.later, ticketId, named, valid.later⟩
  | authenticated id relay role =>
      cases allowed
      rcases shown with ⟨tokenHash, authenticated⟩
      exact ⟨⟨tokenHash, authenticated.later⟩, now⟩
  | connected visit =>
      cases allowed
      have taken := occurs_take occurs
      cases result with
      | none => exact Holds.later shown
      | some peer =>
          rcases RelayHub.take_some taken with ⟨role, found, opposite, -⟩
          exact ⟨Holds.later shown, role, opposite, (vouched _ _ _ found).later⟩
  | missed visit =>
      cases allowed
      cases result <;> trivial
  | parked visit =>
      cases allowed
      trivial
  | awaited visit =>
      cases allowed
      trivial
  | paired visit peer =>
      cases allowed
      change (afterAdmit visit peer result).Shown _ _
      rcases afterAdmit_cases visit peer result with ⟨-, -, -, next⟩ | next
      · rw [next]
        exact Shown.later shown
      · rw [next]
        trivial
  | tunnelling visit peer =>
      rcases after_tunnelling visit peer operation result with next | next
      · rw [next]
        exact Shown.later shown
      · rw [next]
        trivial
  | _ => trivial

def unparked : RelayPhase → Option SocketId
  | connected visit => some visit.socket
  | missed visit => some visit.socket
  | _ => none

theorem Shown.upgraded {phase : RelayPhase} {socket : SocketId}
    (shown : phase.Shown history process) (carried : phase.unparked = some socket) :
    Answered history process (.relay .upgrade) socket := by
  cases phase with
  | connected visit =>
      cases carried
      exact shown.2
  | missed visit =>
      cases carried
      exact shown.2
  | _ => cases carried

/-- A connection carries an unparked socket since it got it, and no longer once
it has parked. -/
theorem unparked_after {phase : RelayPhase} {operation : Operation}
    {result : operation.Result} {socket : SocketId} (allowed : phase.allows operation)
    (carried : (phase.after operation result).unparked = some socket) :
    (operation = .relay .upgrade ∧ HEq result socket) ∨
      phase.unparked = some socket ∧ ∃ id role, operation = .relay (.take id role) := by
  cases phase with
  | arriving id =>
      cases allowed
      cases result with
      | error failure => cases carried
      | ok row => cases row <;> cases carried
  | loaded id relay =>
      rcases allowed with ⟨tokenHash, rfl⟩ | ⟨ticketId, tokenHash, named, rfl⟩
      · cases result with
        | error failure => cases carried
        | ok row =>
            cases row with
            | none => cases carried
            | some user =>
                change (afterUser id relay user).unparked = some socket at carried
                rcases afterUser_cases id relay user with ⟨-, next⟩ | next <;>
                  exact nomatch next ▸ carried
      · cases result with
        | error failure => cases carried
        | ok valid => cases valid <;> cases carried
  | validated id relay ticketId =>
      cases allowed
      cases result <;> cases carried
  | authenticated id relay role =>
      cases allowed
      cases carried
      exact .inl ⟨rfl, HEq.rfl⟩
  | connected visit =>
      cases allowed
      cases result with
      | none => exact .inr ⟨carried, _, _, rfl⟩
      | some peer => cases carried
  | missed visit =>
      cases allowed
      cases result <;> cases carried
  | parked visit =>
      cases allowed
      cases carried
  | awaited visit =>
      cases allowed
      cases carried
  | paired visit peer =>
      cases allowed
      change (afterAdmit visit peer result).unparked = some socket at carried
      rcases afterAdmit_cases visit peer result with ⟨-, -, -, next⟩ | next <;>
        exact nomatch next ▸ carried
  | tunnelling visit peer =>
      rcases after_tunnelling visit peer operation result with next | next <;>
        exact nomatch next ▸ carried
  | _ => cases carried

theorem missed_of_parks {phase : RelayPhase} {id : Uuid} {role : RelayRole}
    {peer : PendingPeer} (allowed : phase.allows (.relay (.park id role peer))) :
    ∃ visit, phase = .missed visit ∧ id = visit.id ∧ role = visit.role ∧
      peer = ⟨visit.socket, visit.socket⟩ := by
  cases phase with
  | missed visit =>
      cases allowed
      exact ⟨visit, rfl, rfl, rfl, rfl⟩
  | outside => exact (allowed.1 rfl).elim
  | tunnelling visit other => simp [allows, Operation.purpose] at allowed
  | released visit => simp [allows, Operation.purpose] at allowed
  | refusing visit other => simp [allows] at allowed
  | loaded id relay => simp [allows] at allowed
  | _ => cases allowed

theorem tunnelling_of_pipes {phase : RelayPhase} {id : Uuid} {left right : SocketId}
    (allowed : phase.allows (.relay (.pipe id left right))) :
    ∃ visit peer, phase = .tunnelling visit peer ∧ id = visit.id ∧ left = peer.socket ∧
      right = visit.socket := by
  cases phase with
  | tunnelling visit peer =>
      have same : id = visit.id ∧ left = peer.socket ∧ right = visit.socket := by
        simpa [allows, Operation.purpose] using allowed
      exact ⟨visit, peer, rfl, same⟩
  | outside => exact (allowed.1 rfl).elim
  | released visit => simp [allows, Operation.purpose] at allowed
  | refusing visit peer => simp [allows] at allowed
  | loaded id relay => simp [allows] at allowed
  | _ => cases allowed

end RelayPhase

/-! ## Sockets and slots along a trace -/

theorem occurs_upgrade {before after : Service} {socket : SocketId}
    (occurs : network.Occurs before (.relay .upgrade) socket after) :
    socket = before.sockets ∧ after.sockets = before.sockets + 1 := by
  have performed := occurs_relay occurs
  cases performed
  exact ⟨rfl, rfl⟩

theorem occurs_sockets {before after : Service} {operation : Operation}
    {result : operation.Result} (other : operation ≠ .relay .upgrade)
    (occurs : network.Occurs before operation result after) :
    after.sockets = before.sockets := by
  by_cases relay : ∃ own, operation = .relay own
  · rcases relay with ⟨own, rfl⟩
    have left := congrArg Prod.snd (occurs_relay occurs)
    subst left
    cases own with
    | upgrade => exact (other rfl).elim
    | _ => rfl
  · exact (occurs_relay_untouched (fun own same => relay ⟨own, same⟩) occurs).2.1

theorem sockets_of_trace {start final : Service} {history : List (Event network)}
    (traced : Traced start history final) :
    (∀ process socket, Answered history process (.relay .upgrade) socket →
      socket < final.sockets) ∧
    ∀ first second socket, Answered history first (.relay .upgrade) socket →
      Answered history second (.relay .upgrade) socket → first = second := by
  refine @Traced.invariant network _ _ _ (fun history service =>
    (∀ process socket, Answered history process (.relay .upgrade) socket →
      socket < service.sockets) ∧
    ∀ first second socket, Answered history first (.relay .upgrade) socket →
      Answered history second (.relay .upgrade) socket → first = second) traced ?_ ?_
  · exact ⟨fun _ _ answered => (by simp [Answered] at answered),
      fun _ _ _ answered => (by simp [Answered] at answered)⟩
  · rintro ⟨process, before, operation, result, after⟩ older - happened ⟨below, unique⟩
    have occurs : network.Occurs before operation result after := happened
    by_cases upgrade : operation = .relay .upgrade
    · subst upgrade
      rcases occurs_upgrade occurs with ⟨rfl, grown⟩
      have fresh (other : Nat) :
          ¬Answered older other (.relay .upgrade) before.sockets := fun answered =>
        Nat.lt_irrefl _ (below other _ answered)
      constructor
      · intro other socket answered
        simp only [grown]
        rcases answered_cons answered with ⟨_, _, same⟩ | earlier
        · cases same
          exact Nat.lt_succ_self _
        · exact Nat.lt_succ_of_lt (below other socket earlier)
      · intro first second socket answered again
        rcases answered_cons answered with ⟨_, _, same⟩ | earlier
        · cases same
          rcases answered_cons again with ⟨_, _, same⟩ | earlier
          · cases same
            rfl
          · exact (fresh second earlier).elim
        · rcases answered_cons again with ⟨_, _, same⟩ | also
          · cases same
            exact (fresh first earlier).elim
          · exact unique first second socket earlier also
    · have before_only {other : Nat} {socket : SocketId}
          (answered : Answered (⟨process, before, operation, result, after⟩ :: older) other
            (.relay .upgrade) socket) : Answered older other (.relay .upgrade) socket := by
        rcases answered_cons answered with ⟨_, _, same⟩ | earlier
        · cases same
          exact (upgrade rfl).elim
        · exact earlier
      constructor
      · intro other socket answered
        rw [show after.sockets = before.sockets from occurs_sockets upgrade occurs]
        exact below other socket (before_only answered)
      · intro first second socket answered again
        exact unique first second socket (before_only answered) (before_only again)

theorem waiting_after {before after : Service} {operation : Operation}
    {result : operation.Result} (occurs : network.Occurs before operation result after)
    {id : Uuid} {role : RelayRole} {peer : PendingPeer}
    (found : after.realtime.relay.waiting.lookup id = some (role, peer)) :
    before.realtime.relay.waiting.lookup id = some (role, peer) ∨
      operation = .relay (.park id role peer) ∧
        HEq result (none : Option PendingPeer) := by
  have kept (other : Uuid)
      (erased : (before.realtime.relay.waiting.erase other).lookup id = some (role, peer)) :
      before.realtime.relay.waiting.lookup id = some (role, peer) := by
    by_cases same : id = other
    · subst same
      rw [AList.lookup_erase] at erased
      cases erased
    · rwa [AList.lookup_erase_ne same] at erased
  by_cases relay : ∃ own, operation = .relay own
  · rcases relay with ⟨own, rfl⟩
    have performed := occurs_relay occurs
    cases own with
    | take other incoming =>
        have taken := occurs_take occurs
        cases result with
        | none => exact .inl ((RelayHub.take_none taken).1 ▸ found)
        | some waiter =>
            rcases RelayHub.take_some taken with ⟨_, -, -, left⟩
            rw [left] at found
            exact .inl (kept other found)
    | removeWaiting other =>
        cases performed
        exact .inl (kept other found)
    | park other parkedRole waiter =>
        have parked := occurs_park occurs
        cases result with
        | some back => exact .inl ((RelayHub.park_refused parked).2.1 ▸ found)
        | none =>
            rcases RelayHub.park_accepted parked with ⟨-, left⟩
            rw [left] at found
            by_cases same : id = other
            · subst same
              rw [AList.lookup_insert] at found
              cases found
              exact .inr ⟨rfl, HEq.rfl⟩
            · rw [AList.lookup_insert_ne same] at found
              exact .inl found
    | _ =>
        cases performed
        exact .inl found
  · have untouched : after.realtime.relay = before.realtime.relay :=
      (occurs_relay_untouched (fun own same => relay ⟨own, same⟩) occurs).1
    exact .inl (untouched ▸ found)

/-! ## The invariant

It speaks of the connections by their owners, which are those of the whole run. -/

/-- What the history shows of every connection and every waiting socket, and that
no socket was parked twice. -/
structure Pairing (owner : Nat → Option Request) (history : List (Event network))
    (service : Service) : Prop where
  shown : ∀ index request, owner index = some request →
    (relayProtocol.phase request index history).Shown history index
  vouched : Vouched history service.realtime.relay
  unparked : ∀ index request socket, owner index = some request →
    (relayProtocol.phase request index history).unparked = some socket →
      parkings socket history = 0
  once : ∀ socket, parkings socket history ≤ 1
  upgraded : ∀ socket, 0 < parkings socket history →
    ∃ process, Answered history process (.relay .upgrade) socket

section Step

variable {owner : Nat → Option Request} {history : List (Event network)}
  {process : Nat} {request : Request} {before after : Service} {operation : Operation}
  {result : operation.Result}

theorem parkings_cons (socket : SocketId) (event : Event network) :
    parkings socket (event :: history) =
      parkings socket history + (parks socket event).toNat := by
  rw [parkings, List.countP_cons]
  cases parks socket event <;> rfl

theorem parks_own {socket : SocketId} {phase : RelayPhase}
    (allowed : phase.allows operation)
    (parked : parks socket ⟨process, before, operation, result, after⟩ = true) :
    ∃ visit, phase = .missed visit ∧ visit.socket = socket ∧
      operation = .relay (.park visit.id visit.role ⟨socket, socket⟩) := by
  unfold parks at parked
  split at parked
  · rename_i id role peer _ _ same
    cases same
    have carried : peer.socket = socket := by simpa using parked
    rcases RelayPhase.missed_of_parks allowed with ⟨visit, phase, rfl, rfl, rfl⟩
    subst carried
    exact ⟨visit, phase, rfl, rfl⟩
  · cases parked

theorem Pairing.event {start : Service} (pairing : Pairing owner history before)
    (traced : Traced start history before)
    (occurs : network.Occurs before operation result after)
    (owned : owner process = some request)
    (allowed : (relayProtocol.phase request process history).allows operation) :
    Pairing owner (⟨process, before, operation, result, after⟩ :: history) after := by
  have sockets := sockets_of_trace traced
  have now : relayProtocol.phase request process
      (⟨process, before, operation, result, after⟩ :: history) =
        (relayProtocol.phase request process history).after operation result :=
    Protocol.phase_cons_own request ⟨process, before, operation, result, after⟩ history
  have others {index : Nat} (other : Request) (different : index ≠ process) :
      relayProtocol.phase other index
        (⟨process, before, operation, result, after⟩ :: history) =
          relayProtocol.phase other index history :=
    Protocol.phase_cons_other other ⟨process, before, operation, result, after⟩
      (Ne.symm different) history
  -- a socket is parked by the connection that carries it, while it is unparked
  have fresh (socket : SocketId)
      (parked : parks socket ⟨process, before, operation, result, after⟩ = true) :
      parkings socket history = 0 ∧ Answered history process (.relay .upgrade) socket := by
    rcases parks_own allowed parked with ⟨visit, phase, rfl, -⟩
    have carried : (relayProtocol.phase request process history).unparked =
        some visit.socket := by
      rw [phase]
      rfl
    exact ⟨pairing.unparked process request _ owned carried,
      (pairing.shown process request owned).upgraded carried⟩
  refine ⟨?_, ?_, ?_, ?_, ?_⟩
  · intro index other ownedOther
    by_cases own : index = process
    · subst own
      rw [Option.some.inj (ownedOther.symm.trans owned), now]
      exact RelayPhase.shown_after (pairing.shown index request owned) allowed occurs
        pairing.vouched
    · rw [others other own]
      exact (pairing.shown index other ownedOther).later
  · intro id role peer found
    rcases waiting_after occurs found with earlier | ⟨rfl, -⟩
    · exact (pairing.vouched id role peer earlier).later
    · have parked : parks peer.socket
          ⟨process, before, .relay (.park id role peer), result, after⟩ = true := by
        simp [parks]
      rcases parks_own allowed parked with ⟨visit, phase, -, same⟩
      have shown := pairing.shown process request owned
      rw [phase] at shown
      rcases shown with ⟨⟨tokenHash, authenticated⟩, upgraded⟩
      simp only [Operation.relay.injEq, RelayOperation.park.injEq] at same
      rcases same with ⟨rfl, rfl, -⟩
      exact ⟨process, tokenHash, authenticated.later, (fresh _ parked).2.later⟩
  · intro index other socket ownedOther carried
    rw [parkings_cons]
    by_cases own : index = process
    · subst own
      rw [Option.some.inj (ownedOther.symm.trans owned), now] at carried
      rcases RelayPhase.unparked_after allowed carried with ⟨rfl, same⟩ | ⟨earlier, _, _, rfl⟩
      · cases eq_of_heq same
        have unknown : parkings socket history = 0 := by
          refine Nat.eq_zero_of_not_pos fun parked => ?_
          rcases pairing.upgraded _ parked with ⟨holder, upgraded⟩
          have below := sockets.1 holder _ upgraded
          rw [(occurs_upgrade occurs).1] at below
          exact Nat.lt_irrefl _ below
        exact unknown
      · exact pairing.unparked index request socket owned earlier
    · rw [others other own] at carried
      have none := pairing.unparked index other socket ownedOther carried
      cases parked : parks socket ⟨process, before, operation, result, after⟩ with
      | false => exact none
      | true =>
          have held := (pairing.shown index other ownedOther).upgraded carried
          exact (own (sockets.2 index process socket held (fresh socket parked).2)).elim
  · intro socket
    rw [parkings_cons]
    cases parked : parks socket ⟨process, before, operation, result, after⟩ with
    | false => exact pairing.once socket
    | true => exact Nat.le_of_eq (congrArg (· + 1) (fresh socket parked).1)
  · intro socket some
    rw [parkings_cons] at some
    cases parked : parks socket ⟨process, before, operation, result, after⟩ with
    | false =>
        rw [parked] at some
        rcases pairing.upgraded socket some with ⟨holder, upgraded⟩
        exact ⟨holder, upgraded.later⟩
    | true => exact ⟨process, (fresh socket parked).2.later⟩

end Step

/-- The invariant holds at the end of every trace whose operations the phases
of their connections allow. -/
theorem Pairing.of_trace {owner : Nat → Option Request} {start final : Service}
    {history : List (Event network)} (traced : Traced start history final)
    (vacant : start.realtime.relay = .new)
    (obeyed : ∀ event older, event :: older <:+ history → ∃ request,
      owner event.process = some request ∧
        (relayProtocol.phase request event.process older).allows event.operation) :
    Pairing owner history final := by
  refine @Traced.invariant network _ _ _ (Pairing owner) traced ?_ ?_
  · have nothing (request : Request) (index : Nat) :
        relayProtocol.phase request index [] = .outside ∨
          ∃ id, relayProtocol.phase request index [] = .arriving id := by
      cases request with
      | relay id params => exact .inr ⟨id, rfl⟩
      | _ => exact .inl rfl
    refine ⟨?_, ?_, fun _ _ _ _ _ => rfl, fun _ => Nat.zero_le 1, nofun⟩
    · intro index request owned
      rcases nothing request index with phase | ⟨id, phase⟩
      · rw [phase]
        trivial
      · rw [phase]
        trivial
    · intro id role peer found
      rw [vacant] at found
      cases found
  · intro event older suffix happened pairing
    rcases obeyed event older suffix with ⟨request, owned, allowed⟩
    exact pairing.event (traced.of_suffix suffix).1 happened owned allowed

/-! ## The tokens of a connection -/

def Network.Relay.RelayQuery.presents (state : AppState) (id : Uuid)
    (params : Network.Relay.RelayQuery) : Operation → Prop
  | .statement (.relay (.select other)) => other = id
  | .statement (.relay (.userFromToken tokenHash)) => params.role = "host" ∧
      ∃ token, params.token = some token ∧ tokenHash = state.hashToken token
  | .statement (.relay (.ticketValid _ tokenHash _)) => params.role = "guest" ∧
      ∃ token, params.token = some token ∧ tokenHash = state.hashToken token
  | _ => True

def Request.presents (state : AppState) : Request → Operation → Prop
  | relay id params, operation => params.presents state id operation
  | _, operation => operation.purpose ≠ .relay

section Tokens

open Handler Network.Relay

theorem handleRelay_presents {state : AppState} {id : Uuid} {params : RelayQuery}
    (socket : SocketId) (role : RelayRole) (worldId : Uuid) (guestUserId : Option Uuid) :
    (handleRelay socket id role worldId guestUserId).Uses (params.presents state id) := by
  have told : (broadcastGuest guestUserId).Uses (params.presents state id) := by
    cases guestUserId with
    | none => trivial
    | some guest =>
        rw [uses_iff, broadcastGuest, meets_logged]
        exact uses_iff.mp
          (Network.Presence.broadcastPresence_uses (fun _ _ => trivial) guest trivial)
  rw [uses_iff] at told ⊢
  simp only [handleRelay, meets_bind, meets_operate]
  refine ⟨trivial, fun found => ?_⟩
  cases found with
  | none =>
      simp [awaitPairing, RelayQuery.presents]
  | some peer =>
      simp only [tryAdmitPlayer, meets_bind, meets_attempt]
      refine ⟨trivial, fun admitted => ?_⟩
      cases admitted <;>
        simp [runTunnel, refusePair, markRelayActive, markRelayClosed, releasePlayer,
          RelayQuery.presents, told]

theorem authenticate_presents {state : AppState} {id : Uuid} {params : RelayQuery}
    {token : String} (named : params.token = some token) (relay : RelaySession) :
    (authenticate state relay params.role token).Uses (params.presents state id) := by
  rw [uses_iff]
  unfold authenticate
  split
  · rename_i role
    simp [Network.Signaling.userFromToken, forall_except, RelayQuery.presents, named, role]
  · rename_i role
    simp [validateGuestTicket, forall_except, RelayQuery.presents, named, role]
  · trivial

theorem relayWs_presents (state : AppState) (id : Uuid) (params : RelayQuery) :
    (relayWs state id params).Uses (params.presents state id) := by
  have handled (socket : SocketId) (role : RelayRole) (worldId : Uuid)
      (guestUserId : Option Uuid) :=
    @handleRelay_presents state id params socket role worldId guestUserId
  have ignores (operation : Operation) (presents : params.presents state id operation) :
      (Logic.footprint (params.presents state id) : Logic network).Ignores () operation :=
    fun _ holds => ⟨presents, holds⟩
  rw [uses_iff]
  simp only [relayWs, meets_bind, meets_okOr, meets_query, meets_refuse, meets_operate]
  refine ⟨fun _ => trivial, fun token named => ⟨rfl, fun row => ?_⟩⟩
  cases row with
  | error failure => trivial
  | ok row =>
      refine ⟨fun _ => trivial, fun relay _ => ⟨fun _ => trivial, fun _ => ?_⟩⟩
      refine Handler.Uses.meets ignores (authenticate_presents named relay) (fun role => ?_)
        fun _ => trivial
      exact ⟨trivial, fun socket => uses_iff.mp (handled socket role _ _)⟩

theorem handle_presents (state : AppState) (request : Request) :
    (handle state request).Uses (request.presents state) := by
  by_cases relay : request.purpose = .relay
  · cases request with
    | relay id params =>
        refine meets_run.mpr ?_
        rw [Request.handler, meets_map]
        exact uses_iff.mp (relayWs_presents state id params)
    | _ => cases relay
  · have avoids := handle_avoids state relay (by decide) (by decide)
    cases request with
    | relay id params => exact (relay rfl).elim
    | _ => exact avoids

end Tokens

/-! ## Every run -/

section Proof

variable {state : AppState} {final : Pool network Request (Except AppError Reply)}

theorem proved_of_presented
    (presents : ∀ event ∈ final.history, ∃ request,
      final.owner event.process = some request ∧ request.presents state event.operation)
    {id : Uuid} {role : RelayRole} {socket : SocketId}
    (presented : Presented final.history id role socket) : Proved state final id role socket := by
  rcases presented with ⟨process, tokenHash, ⟨relay, selected, proof⟩, upgraded⟩
  have taken {operation : Operation} {result : operation.Result}
      (answered : Answered final.history process operation result) : ∃ request,
      final.owner process = some request ∧ request.presents state operation := by
    rcases answered with ⟨before, after, member⟩
    exact presents _ member
  rcases taken selected with ⟨request, owned, named⟩
  cases request with
  | relay other params =>
      cases named
      have own {operation : Operation} {result : operation.Result}
          (answered : Answered final.history process operation result) :
          params.presents state id operation := by
        rcases taken answered with ⟨request, ownedAgain, holds⟩
        cases Option.some.inj (owned.symm.trans ownedAgain)
        exact holds
      cases role with
      | host =>
          rcases proof with ⟨user, host, known⟩
          rcases own known with ⟨-, token, given, rfl⟩
          exact ⟨process, params, token, owned, given, ⟨relay, selected, user, host, known⟩,
            upgraded⟩
      | guest =>
          rcases proof with ⟨ticketId, issued, valid⟩
          rcases own valid with ⟨-, token, given, rfl⟩
          exact ⟨process, params, token, owned, given,
            ⟨relay, selected, ticketId, issued, valid⟩, upgraded⟩
  | _ => exact (named rfl).elim

theorem proved_unique
    (presents : ∀ event ∈ final.history, ∃ request,
      final.owner event.process = some request ∧ request.presents state event.operation)
    {start : Service} (traced : Traced start final.history final.shared)
    {socket : SocketId} {id other : Uuid} {role otherRole : RelayRole}
    (proved : Proved state final id role socket)
    (again : Proved state final other otherRole socket) : id = other ∧ role = otherRole := by
  rcases proved with ⟨process, params, _, owned, -, ⟨_, -, proof⟩, upgraded⟩
  rcases again with ⟨second, _, _, ownedAgain, -, ⟨_, -, otherProof⟩, upgradedAgain⟩
  cases (sockets_of_trace traced).2 process second socket upgraded upgradedAgain
  cases Option.some.inj (owned.symm.trans ownedAgain)
  refine ⟨rfl, ?_⟩
  have own {operation : Operation} {result : operation.Result}
      (answered : Answered final.history process operation result) :
      params.presents state id operation := by
    rcases answered with ⟨before, after, member⟩
    rcases presents _ member with ⟨request, ownedThere, holds⟩
    cases Option.some.inj (owned.symm.trans ownedThere)
    exact holds
  cases role <;> cases otherRole
  · rfl
  · rcases proof with ⟨_, -, known⟩
    rcases otherProof with ⟨_, -, valid⟩
    exact nomatch (own known).1.symm.trans (own valid).1
  · rcases proof with ⟨_, -, valid⟩
    rcases otherProof with ⟨_, -, known⟩
    exact nomatch (own known).1.symm.trans (own valid).1
  · rfl

end Proof

/-- In every interleaving a parked socket is in exactly one place, and every
tunnel joins the proved host and the proved guest of its relay session. -/
theorem relay_pairs_sound (state : AppState) (database : Database) (clock : Timestamp)
    {moves : List (Move Request)} {final : Pool network Request (Except AppError Reply)}
    (reached : run (Pool.move (handle state)) (.initial (.boot database clock)) moves =
      some final) : RelayPairs state final := by
  have traced := Pool.traced_of_run reached
  have obeyed {event : Event network} {older : List (Event network)}
      (suffix : event :: older <:+ final.history) :=
    Pool.allowed_in_phase (handle_courses state) reached suffix
  have presents := Pool.taken_of_run (handle_presents state) reached
  have pairing := Pairing.of_trace traced rfl fun event older suffix => obeyed suffix
  have paired (process : Nat) (id : Uuid) (left right : SocketId)
      (piped : Answered final.history process (.relay (.pipe id left right)) ()) :
      Paired state final id left right := by
    rcases piped with ⟨before, after, member⟩
    rcases suffix_of_mem member with ⟨older, suffix⟩
    rcases obeyed suffix with ⟨request, owned, allowed⟩
    rcases RelayPhase.tunnelling_of_pipes allowed with ⟨visit, peer, phase, rfl, rfl, rfl⟩
    have earlier := Pairing.of_trace (traced.of_suffix suffix).1 rfl
      fun event rest within => obeyed (within.trans ((List.suffix_cons _ _).trans suffix))
    have shown := earlier.shown process request owned
    rw [phase] at shown
    rcases shown with ⟨⟨⟨tokenHash, authenticated⟩, upgraded⟩, role, opposite, presented⟩
    have within : older ⊆ final.history := fun event member =>
      suffix.subset (List.mem_cons_of_mem _ member)
    have here := proved_of_presented presents (presented.mono within)
    have there := proved_of_presented presents
      ⟨process, tokenHash, authenticated.mono within, upgraded.mono within⟩
    cases own : visit.role <;> cases role
    · exact (opposite own.symm).elim
    · exact .inr ⟨here, own ▸ there⟩
    · exact .inl ⟨here, own ▸ there⟩
    · exact (opposite own.symm).elim
  refine ⟨fun socket parked => ?_, paired, ?_⟩
  · rw [places_of_trace traced rfl socket]
    exact Nat.le_antisymm (pairing.once socket) parked
  · intro process id left right piped leftId leftRole rightId rightRole provedLeft provedRight
    rcases paired process id left right piped with ⟨host, guest⟩ | ⟨guest, host⟩
    · rcases proved_unique presents traced provedLeft host with ⟨rfl, rfl⟩
      rcases proved_unique presents traced provedRight guest with ⟨rfl, rfl⟩
      exact ⟨rfl, nofun⟩
    · rcases proved_unique presents traced provedLeft guest with ⟨rfl, rfl⟩
      rcases proved_unique presents traced provedRight host with ⟨rfl, rfl⟩
      exact ⟨rfl, nofun⟩

def tunnelOpened : List (Move Request) :=
  hostAndGuest ++ [.advance 1, .advance 1, .advance 1, .advance 1]

theorem relay_pairs_sound_tunnel :
    ∃ final, run (Pool.move (handle plainState)) (.initial (.boot hostedDatabase 0))
        tunnelOpened = some final ∧
      final.history.head?.map (·.operation) = some (.relay (.pipe 4 0 1)) ∧
      RelayPairs plainState final := by
  have piped : ((run (Pool.move (handle plainState)) (.initial (.boot hostedDatabase 0))
      tunnelOpened).map fun final => final.history.head?.map (·.operation)) =
      some (some (.relay (.pipe 4 0 1))) := by decide +kernel
  rcases Option.map_eq_some_iff.mp piped with ⟨final, reached, last⟩
  exact ⟨final, reached, last, relay_pairs_sound plainState hostedDatabase 0 reached⟩

end Loontail
