import Loontail.Concurrency.Protocol
import Loontail.Network.Requests

/-! # The course of a relay connection

The phases a relay connection goes through and the operations it takes in each.
Invariants over interleavings speak of phases, not of handlers. -/

namespace Loontail

open Concurrency Network

/-- A connection that has its socket: the relay session it named, the row it
read of it, and the role it proved. -/
structure RelayVisit where
  id : Uuid
  relay : RelaySession
  role : RelayRole
  socket : SocketId
  deriving DecidableEq, Repr

inductive RelayPhase where
  | outside
  | arriving (id : Uuid)
  | loaded (id : Uuid) (relay : RelaySession)
  | validated (id : Uuid) (relay : RelaySession) (ticketId : Uuid)
  | authenticated (id : Uuid) (relay : RelaySession) (role : RelayRole)
  | connected (visit : RelayVisit)
  | missed (visit : RelayVisit)
  | parked (visit : RelayVisit)
  | awaited (visit : RelayVisit)
  | paired (visit : RelayVisit) (peer : PendingPeer)
  | tunnelling (visit : RelayVisit) (peer : PendingPeer)
  | released (visit : RelayVisit)
  | refusing (visit : RelayVisit) (peer : PendingPeer)
  | finished
  deriving DecidableEq, Repr

namespace RelayPhase

def allows : RelayPhase → Operation → Prop
  | outside, operation => operation.purpose ≠ .relay ∧ operation.purpose ≠ .restart
  | arriving id, operation => operation = .statement (.relay (.select id))
  | loaded _ relay, operation =>
      (∃ tokenHash, operation = .statement (.relay (.userFromToken tokenHash))) ∨
      ∃ ticketId tokenHash, relay.joinTicketId = some ticketId ∧
        operation = .statement (.relay (.ticketValid ticketId tokenHash relay.guestUserId))
  | validated _ _ ticketId, operation =>
      operation = .statement (.relay (.consumeTicket ticketId))
  | authenticated .., operation => operation = .relay .upgrade
  | connected visit, operation => operation = .relay (.take visit.id visit.role)
  | missed visit, operation =>
      operation = .relay (.park visit.id visit.role ⟨visit.socket, visit.socket⟩)
  | parked visit, operation => operation = .relay (.awaitPeer visit.socket)
  | awaited visit, operation => operation = .relay (.removeWaiting visit.id)
  | paired visit _, operation =>
      operation = .statement (.relay (.admitPlayer visit.relay.worldSessionId))
  | tunnelling visit peer, operation =>
      operation.purpose = .ordinary ∨ operation = .relay .incrActive ∨
      operation = .statement (.relay (.markActive visit.id)) ∨
      operation = .relay (.pipe visit.id peer.socket visit.socket) ∨
      operation = .relay (.signalDone peer.done) ∨ operation = .relay .decrActive ∨
      operation = .statement (.relay (.releasePlayer visit.relay.worldSessionId))
  | released visit, operation =>
      operation.purpose = .ordinary ∨ operation = .statement (.relay (.markClosed visit.id))
  | refusing visit peer, operation =>
      operation = .statement (.relay (.markClosed visit.id)) ∨
      operation = .relay (.signalDone peer.done)
  | finished, _ => False

/-- A connection can end in any phase but those that owe an operation. -/
def ending : RelayPhase → Prop
  | validated .. => False
  | connected _ => False
  | missed _ => False
  | parked _ => False
  | awaited _ => False
  | paired .. => False
  | tunnelling .. => False
  | _ => True

def afterUser (id : Uuid) (relay : RelaySession) (user : User) : RelayPhase :=
  if user.id = relay.hostUserId then authenticated id relay .host else finished

def afterTake (visit : RelayVisit) : Option PendingPeer → RelayPhase
  | some peer => paired visit peer
  | none => missed visit

def afterAdmit (visit : RelayVisit) (peer : PendingPeer) :
    Except DatabaseError Nat → RelayPhase
  | .ok admitted => if admitted > 0 then tunnelling visit peer else refusing visit peer
  | .error _ => refusing visit peer

def after (phase : RelayPhase) (operation : Operation)
    (result : operation.Result) : RelayPhase :=
  match phase, operation, result with
  | arriving id, .statement (.relay (.select _)), .ok (some relay) => loaded id relay
  | loaded id relay, .statement (.relay (.userFromToken _)), .ok (some user) =>
      afterUser id relay user
  | loaded id relay, .statement (.relay (.ticketValid ticketId _ _)), .ok true =>
      validated id relay ticketId
  | validated id relay _, .statement (.relay (.consumeTicket _)), .ok _ =>
      authenticated id relay .guest
  | authenticated id relay role, .relay .upgrade, socket =>
      connected ⟨id, relay, role, socket⟩
  | connected visit, .relay (.take _ _), peer => afterTake visit peer
  | missed visit, .relay (.park _ _ _), none => parked visit
  | parked visit, .relay (.awaitPeer _), _ => awaited visit
  | paired visit peer, .statement (.relay (.admitPlayer _)), admitted =>
      afterAdmit visit peer admitted
  | tunnelling visit _, .statement (.relay (.releasePlayer _)), _ => released visit
  | tunnelling visit peer, _, _ => tunnelling visit peer
  | released visit, _, _ => released visit
  | refusing visit peer, _, _ => refusing visit peer
  | outside, _, _ => outside
  | _, _, _ => finished

end RelayPhase

@[reducible] def relayProtocol : Protocol network Request where
  Phase := RelayPhase
  initial := fun request => match request with
    | .relay id _ => .arriving id
    | _ => .outside
  allows := RelayPhase.allows
  after := RelayPhase.after

/-! ## Where a phase comes from -/

namespace RelayPhase

theorem afterUser_cases (id : Uuid) (relay : RelaySession) (user : User) :
    user.id = relay.hostUserId ∧ afterUser id relay user = authenticated id relay .host ∨
      afterUser id relay user = finished := by
  unfold afterUser
  split
  · rename_i host
    exact .inl ⟨host, rfl⟩
  · exact .inr rfl

theorem afterAdmit_cases (visit : RelayVisit) (peer : PendingPeer)
    (admitted : Except DatabaseError Nat) :
    (∃ count, admitted = .ok count ∧ 0 < count ∧
      afterAdmit visit peer admitted = tunnelling visit peer) ∨
      afterAdmit visit peer admitted = refusing visit peer := by
  cases admitted with
  | error failure => exact .inr rfl
  | ok count =>
      by_cases free : count > 0
      · exact .inl ⟨count, rfl, free, if_pos free⟩
      · exact .inr (if_neg free)

theorem validated_after {phase : RelayPhase} {operation : Operation}
    {result : operation.Result} {id ticketId : Uuid} {relay : RelaySession}
    (validated : phase.after operation result = .validated id relay ticketId) :
    ∃ tokenHash guestUserId,
      operation = .statement (.relay (.ticketValid ticketId tokenHash guestUserId)) ∧
      HEq result (.ok true : Except DatabaseError Bool) := by
  unfold after at validated
  split at validated
  case h_2 _ _ _ _ user =>
      rcases afterUser_cases _ _ user with ⟨-, next⟩ | next <;>
        cases next.symm.trans validated
  case h_3 =>
      cases validated
      exact ⟨_, _, rfl, HEq.rfl⟩
  case h_6 _ _ _ peer => cases peer <;> cases validated
  case h_9 _ _ _ admitted =>
      rcases afterAdmit_cases _ _ admitted with ⟨-, -, -, next⟩ | next <;>
        cases next.symm.trans validated
  all_goals contradiction

end RelayPhase

/-! ## The handler follows its course -/

namespace RelayPhase

theorem tunnelling_after (visit : RelayVisit) (peer : PendingPeer)
    {operation : Operation} (other : operation.purpose = .ordinary)
    (result : operation.Result) :
    (tunnelling visit peer).after operation result = tunnelling visit peer := by
  unfold after
  split <;> simp_all [Operation.purpose]

end RelayPhase

section Course

open Handler Relay

private theorem meets_broadcastGuest {guestUserId : Option Uuid} {phase : RelayPhase}
    {onOk : Unit → RelayPhase → Prop} {onError : AppError → RelayPhase → Prop}
    (ignored : ∀ operation, operation.purpose = .ordinary →
      phase.allows operation ∧ ∀ result, phase.after operation result = phase)
    (ok : onOk () phase) :
    (broadcastGuest guestUserId).Meets relayProtocol.logic onOk onError phase := by
  cases guestUserId with
  | none => exact ok
  | some guest =>
      rw [broadcastGuest, meets_logged]
      refine Uses.meets (fun operation serving => ?_)
        (Presence.broadcastPresence_serves guest .ordinary) (fun _ => ok) (fun _ => ok)
      have other := serving.ordinary
      exact Protocol.ignores (ignored operation other).1 (ignored operation other).2

/-- Every way out of the handler is a phase that owes nothing. -/
abbrev Courses {Reply : Type} (handler : Handler Reply) (phase : RelayPhase) : Prop :=
  handler.Meets relayProtocol.logic (fun _ last => last.ending) (fun _ last => last.ending)
    phase

theorem runTunnel_courses (visit : RelayVisit) (peer : PendingPeer)
    (guestUserId : Option Uuid) :
    Courses (runTunnel visit.id visit.relay.worldSessionId guestUserId peer visit.socket)
      (.tunnelling visit peer) := by
  simp only [Courses, runTunnel, markRelayActive, releasePlayer, markRelayClosed,
    meets_bind, meets_operate, meets_attempt, meets_pure]
  refine ⟨.inr (.inl rfl), fun _ => ⟨.inr (.inr (.inl rfl)), fun _ => ?_⟩⟩
  refine meets_broadcastGuest (fun operation other =>
    ⟨.inl other, RelayPhase.tunnelling_after visit peer other⟩) ?_
  refine ⟨.inr (.inr (.inr (.inl rfl))), fun _ =>
    ⟨.inr (.inr (.inr (.inr (.inl rfl)))), fun _ =>
    ⟨.inr (.inr (.inr (.inr (.inr (.inl rfl))))), fun _ =>
    ⟨.inr (.inr (.inr (.inr (.inr (.inr rfl))))), fun _ =>
    ⟨.inr rfl, fun _ => ?_⟩⟩⟩⟩⟩
  exact meets_broadcastGuest (fun operation other => ⟨.inl other, fun _ => rfl⟩) trivial

theorem refusePair_courses (visit : RelayVisit) (peer : PendingPeer) :
    Courses (refusePair visit.id peer) (.refusing visit peer) :=
  ⟨.inl rfl, fun _ => ⟨.inr rfl, fun _ => trivial⟩⟩

private theorem admitted_courses (visit : RelayVisit) (peer : PendingPeer)
    (guestUserId : Option Uuid) (count : Nat) :
    Courses (if decide (count > 0) = true then
        runTunnel visit.id visit.relay.worldSessionId guestUserId peer visit.socket
      else refusePair visit.id peer) (RelayPhase.afterAdmit visit peer (.ok count)) := by
  by_cases free : count > 0
  · simpa [RelayPhase.afterAdmit, free] using runTunnel_courses visit peer guestUserId
  · simpa [RelayPhase.afterAdmit, free] using refusePair_courses visit peer

theorem handleRelay_courses (visit : RelayVisit) (guestUserId : Option Uuid) :
    Courses (handleRelay visit.socket visit.id visit.role visit.relay.worldSessionId
      guestUserId) (.connected visit) := by
  simp only [Courses, handleRelay, meets_bind, meets_operate]
  refine ⟨rfl, fun found => ?_⟩
  cases found with
  | some peer =>
      simp only [tryAdmitPlayer, meets_bind, meets_attempt]
      refine ⟨rfl, fun admitted => ?_⟩
      cases admitted with
      | error failure => exact refusePair_courses visit peer
      | ok count => exact admitted_courses visit peer guestUserId count
  | none =>
      simp only [awaitPairing, meets_bind, meets_operate, meets_whenever, meets_pure]
      refine ⟨rfl, fun refused => ?_⟩
      cases refused with
      | none => exact ⟨fun _ => ⟨rfl, fun _ => ⟨rfl, fun _ => trivial⟩⟩, by rintro ⟨⟩⟩
      | some back => exact ⟨by rintro ⟨⟩, fun _ => trivial⟩

private theorem authenticate_courses (state : AppState) (id : Uuid) (relay : RelaySession)
    (role token : String) (rest : RelayRole → Handler Unit)
    (continues : ∀ proved, Courses (rest proved) (.authenticated id relay proved)) :
    Courses (authenticate state relay role token >>= rest) (.loaded id relay) := by
  simp only [Courses, meets_bind, authenticate]
  split
  · simp only [Signaling.userFromToken, meets_bind, meets_query, meets_okOr, meets_refuse,
      meets_pure]
    refine ⟨.inl ⟨_, rfl⟩, fun user => ?_⟩
    cases user with
    | error failure => trivial
    | ok user =>
        refine ⟨fun absent => ?_, fun known present => ⟨fun different => ?_, fun same => ?_⟩⟩
        · subst absent
          trivial
        · subst present
          have stranger : known.id ≠ relay.hostUserId := by simpa using different
          change (RelayPhase.afterUser id relay known).ending
          rw [RelayPhase.afterUser, if_neg stranger]
          trivial
        · subst present
          have host : known.id = relay.hostUserId := by simpa using same
          change Courses (rest .host) (RelayPhase.afterUser id relay known)
          rw [RelayPhase.afterUser, if_pos host]
          exact continues .host
  · simp only [validateGuestTicket, meets_bind, meets_query, meets_okOr, meets_refuse,
      meets_pure]
    refine ⟨fun _ => trivial, fun ticketId named =>
      ⟨.inr ⟨ticketId, _, named, rfl⟩, fun valid => ?_⟩⟩
    cases valid with
    | error failure => trivial
    | ok valid =>
        cases valid with
        | false => exact ⟨fun _ => trivial, by rintro ⟨⟩⟩
        | true =>
            refine ⟨by rintro ⟨⟩, fun _ => ⟨rfl, fun consumed => ?_⟩⟩
            cases consumed with
            | error failure => trivial
            | ok count => exact continues .guest
  · trivial

theorem relayWs_courses (state : AppState) (id : Uuid) (params : RelayQuery) :
    Courses (relayWs state id params) (.arriving id) := by
  simp only [Courses, relayWs]
  rw [meets_bind, meets_okOr]
  refine ⟨fun _ => trivial, fun token _ => ?_⟩
  rw [meets_bind, meets_query]
  refine ⟨rfl, fun row => ?_⟩
  cases row with
  | error failure => trivial
  | ok row =>
      cases row with
      | none => simp [RelayPhase.ending, RelayPhase.after]
      | some relay =>
          simp only [meets_bind, meets_okOr, meets_refuse]
          refine ⟨by rintro ⟨⟩, fun value present => ⟨fun _ => trivial, fun _ => ?_⟩⟩
          cases present
          have rest := authenticate_courses state id relay params.role token (fun role => do
            let socket ← operate (.relay .upgrade)
            handleRelay socket id role relay.worldSessionId relay.guestUserId)
          simp only [Courses, meets_bind] at rest
          exact rest fun proved => ⟨rfl, fun socket =>
            handleRelay_courses ⟨id, relay, proved, socket⟩ relay.guestUserId⟩

/-- Every request keeps to the relay protocol; all but relay connections do so
by taking no relay operation. -/
theorem handle_courses (state : AppState) (request : Request) :
    (handle state request).Meets relayProtocol.logic (fun _ phase => phase.ending)
      (relayProtocol.initial request) := by
  by_cases relay : request.purpose = .relay
  · cases request with
    | relay id params =>
        refine meets_run.mpr ?_
        rw [Request.handler, meets_map]
        exact relayWs_courses state id params
    | _ => cases relay
  · have start : relayProtocol.initial request = .outside := by
      cases request with
      | relay id params => exact (relay rfl).elim
      | _ => rfl
    rw [start]
    refine (handle_serves state request).meets ?_ (fun _ => trivial)
    intro operation serving
    refine Protocol.ignores ?_ fun _ => rfl
    rcases serving with ordinary | own | ⟨transaction, -⟩
    · simp [RelayPhase.allows, ordinary]
    · exact ⟨own ▸ relay, own ▸ request.purpose_ne_restart⟩
    · simp [RelayPhase.allows, transaction]

end Course

end Loontail
