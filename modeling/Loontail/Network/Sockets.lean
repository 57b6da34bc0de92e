import Loontail.Network.Presence

/-! # The sockets -/

/-! ## The signaling socket -/

namespace Loontail.Network.Signaling

open Handler

/-- `auth::user_from_token`. -/
def userFromToken (state : AppState) (token : String) : Handler User := do
  let user ← query (.relay (.userFromToken (state.hashToken token)))
  okOr user .unauthorized

/-- What follows the event loop: the connection is removed, and the user goes
offline with their last one. -/
def tearDown (userId connId : Uuid) : Handler Unit := do
  operate (.signaling (.remove userId connId))
  let online ← operate (.signaling (.isOnline userId))
  whenever (!online) do
    logged (Presence.markOffline userId)
    logged (Presence.broadcastPresence userId)
  operate (.signaling (.dropReceiver connId))

/-- The connection is registered, announced and served until it is gone. Its
receiver is dropped when the handler returns. -/
def handleSignaling (userId connId : Uuid) : Handler Unit := do
  operate (.signaling (.add userId connId))
  logged (Presence.markOnline userId)
  logged (Presence.broadcastPresence userId)
  operate (.signaling (.serve userId connId))
  tearDown userId connId

/-- `GET /signaling` — authenticated before the upgrade. -/
def signalingWs (state : AppState) (token : Option String) (connId : Uuid) :
    Handler Unit := do
  let token ← okOr token .unauthorized
  let user ← userFromToken state token
  handleSignaling user.id connId

/-! ## Footprints -/

theorem signalingWs_serves (state : AppState) (token : Option String) (connId : Uuid) :
    (signalingWs state token connId).Serves .signaling := by
  have told (userId : Uuid) := Presence.broadcastPresence_serves userId .signaling
  simp [Serves, uses_iff, signalingWs, userFromToken, handleSignaling, tearDown,
    Presence.markOnline, Presence.markOffline, forall_except, Serving, Operation.purpose,
    (told _).meets]

end Loontail.Network.Signaling

/-! ## The relay tunnel -/

namespace Loontail.Network.Relay

open Handler Signaling

/-- Single-use: a valid ticket is consumed at once. -/
def validateGuestTicket (state : AppState) (relay : RelaySession) (token : String) :
    Handler Unit := do
  let ticketId ← okOr relay.joinTicketId (.conflict "relay session has no ticket")
  let valid ← query (.relay (.ticketValid ticketId (state.hashToken token) relay.guestUserId))
  refuse (!valid) .unauthorized
  let _ ← query (.relay (.consumeTicket ticketId))
  pure ()

def tryAdmitPlayer (worldId : Uuid) : Handler Bool := do
  match ← attempt (.relay (.admitPlayer worldId)) with
  | .ok admitted => pure (decide (admitted > 0))
  | .error _ => pure false

def releasePlayer (worldId : Uuid) : Handler Unit := do
  let _ ← attempt (.relay (.releasePlayer worldId))
  pure ()

def markRelayActive (relaySessionId : Uuid) : Handler Unit := do
  let _ ← attempt (.relay (.markActive relaySessionId))
  pure ()

def markRelayClosed (relaySessionId : Uuid) : Handler Unit := do
  let _ ← attempt (.relay (.markClosed relaySessionId))
  pure ()

def broadcastGuest (guestUserId : Option Uuid) : Handler Unit :=
  match guestUserId with
  | some guest => logged (Presence.broadcastPresence guest)
  | none => pure ()

def runTunnel (relaySessionId worldId : Uuid) (guestUserId : Option Uuid)
    (peer : PendingPeer) (socket : SocketId) : Handler Unit := do
  operate (.relay .incrActive)
  markRelayActive relaySessionId
  broadcastGuest guestUserId
  operate (.relay (.pipe relaySessionId peer.socket socket))
  operate (.relay (.signalDone peer.done))
  operate (.relay .decrActive)
  releasePlayer worldId
  markRelayClosed relaySessionId
  broadcastGuest guestUserId

/-- A full world refuses the pair: both sockets are dropped. -/
def refusePair (relaySessionId : Uuid) (peer : PendingPeer) : Handler Unit := do
  markRelayClosed relaySessionId
  operate (.relay (.signalDone peer.done))

/-- The first party waits. When the slot was taken meanwhile its socket comes
back and is dropped, so that the waiter keeps the slot. -/
def awaitPairing (relaySessionId : Uuid) (role : RelayRole) (socket : SocketId) :
    Handler Unit := do
  let refused ← operate (.relay (.park relaySessionId role ⟨socket, socket⟩))
  whenever refused.isNone do
    let _ ← operate (.relay (.awaitPeer socket))
    let _ ← operate (.relay (.removeWaiting relaySessionId))
    pure ()

def handleRelay (socket : SocketId) (relaySessionId : Uuid) (role : RelayRole)
    (worldId : Uuid) (guestUserId : Option Uuid) : Handler Unit := do
  match ← operate (.relay (.take relaySessionId role)) with
  | some peer =>
      let admitted ← tryAdmitPlayer worldId
      if admitted then runTunnel relaySessionId worldId guestUserId peer socket
      else refusePair relaySessionId peer
  | none => awaitPairing relaySessionId role socket

/-- The role a connection has proved: the host by session, the guest by ticket. -/
def authenticate (state : AppState) (relay : RelaySession) (role token : String) :
    Handler RelayRole :=
  match role with
  | "host" => do
      let user ← userFromToken state token
      refuse (user.id ≠ relay.hostUserId) .forbidden
      pure .host
  | "guest" => do
      validateGuestTicket state relay token
      pure .guest
  | _ => throw (.badRequest "role must be host or guest")

structure RelayQuery where
  token : Option String
  role : String
  deriving DecidableEq, Repr

/-- `GET /relay/:relaySessionId?role=host|guest`. -/
def relayWs (state : AppState) (relaySessionId : Uuid) (params : RelayQuery) :
    Handler Unit := do
  let token ← okOr params.token .unauthorized
  let relay ← query (.relay (.select relaySessionId))
  let relay ← okOr relay (.notFound "relay session not found")
  refuse (relay.status = .closed) (.conflict "relay session is closed")
  let role ← authenticate state relay params.role token
  let socket ← operate (.relay .upgrade)
  handleRelay socket relaySessionId role relay.worldSessionId relay.guestUserId

/-! ## Footprints -/

theorem broadcastGuest_serves (guestUserId : Option Uuid) (purpose : Purpose) :
    (broadcastGuest guestUserId).Serves purpose := by
  cases guestUserId with
  | none => trivial
  | some guest =>
      have told := Presence.broadcastPresence_serves guest purpose
      simp [Serves, uses_iff, broadcastGuest, told.meets]

theorem authenticate_serves (state : AppState) (relay : RelaySession)
    (role token : String) : (authenticate state relay role token).Serves .relay := by
  rw [Serves, uses_iff]
  unfold authenticate
  split <;> simp [userFromToken, validateGuestTicket, forall_except, Serving,
    Operation.purpose]

theorem handleRelay_serves (socket : SocketId) (relaySessionId : Uuid) (role : RelayRole)
    (worldId : Uuid) (guestUserId : Option Uuid) :
    (handleRelay socket relaySessionId role worldId guestUserId).Serves .relay := by
  have told := broadcastGuest_serves guestUserId .relay
  simp only [Serves, uses_iff, handleRelay, meets_bind, meets_operate]
  refine ⟨.inr (.inl rfl), fun found => ?_⟩
  cases found with
  | none =>
      simp [awaitPairing, Serving, Operation.purpose]
  | some peer =>
      simp only [tryAdmitPlayer, meets_bind, meets_attempt]
      refine ⟨.inr (.inl rfl), fun admitted => ?_⟩
      cases admitted <;>
        simp [runTunnel, refusePair, markRelayActive, markRelayClosed, releasePlayer,
          Serving, Operation.purpose, told.meets]

theorem relayWs_serves (state : AppState) (relaySessionId : Uuid) (params : RelayQuery) :
    (relayWs state relaySessionId params).Serves .relay := by
  have proved (relay : RelaySession) (token : String) :=
    authenticate_serves state relay params.role token
  have handled (socket : SocketId) (role : RelayRole) (worldId : Uuid)
      (guestUserId : Option Uuid) :=
    handleRelay_serves socket relaySessionId role worldId guestUserId
  simp [Serves, uses_iff, relayWs, forall_except, Serving, Operation.purpose,
    (proved _ _).meets, (handled _ _ _ _).meets]

end Loontail.Network.Relay
