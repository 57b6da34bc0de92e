import Loontail.Network.Handler
import Loontail.Network.Invites
import Loontail.Network.Sockets

/-! # What the service is asked to do

A request names its caller, already authenticated where the route demands it,
and carries the identifiers and tokens that the handler draws at random. -/

/-! ## Background jobs -/

namespace Loontail.Network.Cleanup

open Handler

structure CleanupCounts where
  expiredJoinRequests : Nat
  expiredInvites : Nat
  deletedJoinTickets : Nat
  deletedTerminalJoinRequests : Nat
  deletedTerminalInvites : Nat
  deriving DecidableEq, Repr

def cleanupStaleJoinState (retentionDays : Int) : Handler CleanupCounts := do
  let expiredJoinRequests ← query (.maintenance .expireJoinRequests)
  let expiredInvites ← query (.maintenance .expireInvites)
  let deletedJoinTickets ← query (.maintenance (.deleteJoinTickets retentionDays))
  let deletedTerminalJoinRequests ← query (.maintenance (.deleteJoinRequests retentionDays))
  let deletedTerminalInvites ← query (.maintenance (.deleteInvites retentionDays))
  pure { expiredJoinRequests, expiredInvites, deletedJoinTickets,
         deletedTerminalJoinRequests, deletedTerminalInvites }

/-- Before a restarted service takes requests: its old connections are gone. -/
def reconcileAfterRestart : Handler Unit := do
  let _ ← query (.maintenance .closeRelaySessions)
  let _ ← query (.maintenance .resetPlayers)
  pure ()

def tick (elapsed : Nat) : Handler Unit := operate (.tick elapsed)

theorem cleanupStaleJoinState_serves (retentionDays : Int) :
    (cleanupStaleJoinState retentionDays).Serves .cleanup := by
  simp [Serves, uses_iff, cleanupStaleJoinState, forall_except, Serving, Operation.purpose]

theorem reconcileAfterRestart_serves : reconcileAfterRestart.Serves .restart := by
  simp [Serves, uses_iff, reconcileAfterRestart, forall_except, Serving, Operation.purpose]

end Loontail.Network.Cleanup

/-! ## Requests -/

namespace Loontail

open Concurrency Network

inductive Request where
  | createWorld (auth : Uuid) (body : Worlds.CreateWorldSession) (newId : Uuid)
  | updateWorld (auth id : Uuid) (body : Worlds.UpdateWorldSession)
  | closeWorld (auth id : Uuid)
  | createJoinTicket (auth worldId : Uuid) (draw : TicketDraw)
  | createJoinRequest (auth worldId newId : Uuid)
  | acceptJoinRequest (auth id : Uuid) (draw : TicketDraw)
  | declineJoinRequest (auth id : Uuid)
  | createInvite (auth worldId invitee newId : Uuid)
  | acceptInvite (auth id : Uuid) (draw : TicketDraw)
  | declineInvite (auth id : Uuid)
  | approveInvite (auth id : Uuid)
  | revokeInvite (auth id : Uuid)
  | createFriendRequest (auth target newId : Uuid)
  | acceptFriendRequest (auth id newId : Uuid)
  | declineFriendRequest (auth id : Uuid)
  | removeFriend (auth other : Uuid)
  | heartbeat (auth : Uuid)
  | setStatus (auth : Uuid) (body : Presence.SetStatusRequest)
  | bootstrap (auth : Uuid) (body : Presence.BootstrapRequest)
  | signaling (token : Option String) (connId : Uuid)
  | relay (relaySessionId : Uuid) (params : Relay.RelayQuery)
  | cleanup (retentionDays : Int)
  | tick (elapsed : Nat)
  deriving DecidableEq, Repr

inductive Reply where
  | world (world : WorldSession)
  | ticket (ticket : JoinTicketDto)
  | joinRequest (request : Join.JoinRequestDto)
  | invite (invite : Invites.WorldInviteDto)
  | friendRequest (request : Friends.FriendRequestDto)
  | status (status : PresenceStatus)
  | user (user : UserDto)
  | counts (counts : Cleanup.CleanupCounts)
  | done
  deriving DecidableEq, Repr

namespace Request

def handler (state : AppState) : Request → Handler Reply
  | createWorld auth body newId => .world <$> Worlds.create state auth body newId
  | updateWorld auth id body => .world <$> Worlds.update state auth id body
  | closeWorld auth id => (fun _ => .done) <$> Worlds.close auth id
  | createJoinTicket auth worldId draw =>
      .ticket <$> Join.createJoinTicket state auth worldId draw
  | createJoinRequest auth worldId newId =>
      .joinRequest <$> Join.createJoinRequest state auth worldId newId
  | acceptJoinRequest auth id draw => .joinRequest <$> Join.accept state auth id draw
  | declineJoinRequest auth id => .joinRequest <$> Join.decline auth id
  | createInvite auth worldId invitee newId =>
      .invite <$> Invites.create state auth worldId invitee newId
  | acceptInvite auth id draw => .ticket <$> Invites.accept state auth id draw
  | declineInvite auth id => .invite <$> Invites.decline auth id
  | approveInvite auth id => .invite <$> Invites.approve auth id
  | revokeInvite auth id => (fun _ => .done) <$> Invites.revoke auth id
  | createFriendRequest auth target newId =>
      .friendRequest <$> Friends.createRequest auth target newId
  | acceptFriendRequest auth id newId => .friendRequest <$> Friends.accept auth id newId
  | declineFriendRequest auth id => .friendRequest <$> Friends.decline auth id
  | removeFriend auth other => (fun _ => .done) <$> Friends.removeFriend auth other
  | heartbeat auth => .status <$> Presence.heartbeat state auth
  | setStatus auth body => .status <$> Presence.setStatus auth body
  | bootstrap auth body => .user <$> Presence.bootstrap auth body
  | signaling token connId => (fun _ => .done) <$> Signaling.signalingWs state token connId
  | relay relaySessionId params =>
      (fun _ => .done) <$> Relay.relayWs state relaySessionId params
  | cleanup retentionDays => .counts <$> Cleanup.cleanupStaleJoinState retentionDays
  | tick elapsed => (fun _ => .done) <$> Cleanup.tick elapsed

def purpose : Request → Purpose
  | createWorld .. => .createWorld
  | updateWorld .. => .updateWorld
  | closeWorld .. => .closeWorld
  | createJoinTicket .. => .joinTicket
  | createJoinRequest .. => .joinRequest
  | acceptJoinRequest .. => .acceptJoinRequest
  | createInvite .. => .invite
  | acceptInvite .. => .acceptInvite
  | approveInvite .. => .approveInvite
  | createFriendRequest .. => .friendRequest
  | acceptFriendRequest .. => .friendRequest
  | declineFriendRequest .. => .friendRequest
  | removeFriend .. => .removeFriend
  | setStatus .. => .setStatus
  | signaling .. => .signaling
  | relay .. => .relay
  | cleanup _ => .cleanup
  | tick _ => .tick
  | _ => .ordinary

theorem purpose_ne_restart (request : Request) : request.purpose ≠ .restart := by
  cases request <;> exact nofun

theorem purpose_ne_transaction (request : Request) : request.purpose ≠ .transaction := by
  cases request <;> exact nofun

end Request

def handle (state : AppState) (request : Request) :
    Process network (Except AppError Reply) :=
  (request.handler state).run

/-! ## Footprints -/

theorem Handler.Serves.map {Value Last : Type} {handler : Handler Value} {purpose : Purpose}
    (serves : handler.Serves purpose) (apply : Value → Last) :
    (apply <$> handler).Serves purpose := by
  rw [Serves, uses_iff, meets_map]
  exact serves.meets (fun _ => trivial) (fun _ => trivial)

theorem Request.handler_serves (state : AppState) (request : Request) :
    (request.handler state).Serves request.purpose := by
  cases request with
  | createWorld auth body newId =>
      exact (Worlds.create_serves state auth body newId).map _
  | updateWorld auth id body => exact (Worlds.update_serves state auth id body).map _
  | closeWorld auth id => exact (Worlds.close_serves auth id).map _
  | createJoinTicket auth worldId draw =>
      exact (Join.createJoinTicket_serves state auth worldId draw).map _
  | createJoinRequest auth worldId newId =>
      exact (Join.createJoinRequest_serves state auth worldId newId).map _
  | acceptJoinRequest auth id draw => exact (Join.accept_serves state auth id draw).map _
  | declineJoinRequest auth id => exact (Join.decline_serves auth id _).map _
  | createInvite auth worldId invitee newId =>
      exact (Invites.create_serves state auth worldId invitee newId).map _
  | acceptInvite auth id draw => exact (Invites.accept_serves state auth id draw).map _
  | declineInvite auth id => exact (Invites.decline_serves auth id _).map _
  | approveInvite auth id => exact (Invites.approve_serves auth id).map _
  | revokeInvite auth id => exact (Invites.revoke_serves auth id _).map _
  | createFriendRequest auth target newId =>
      exact (Friends.createRequest_serves auth target newId).map _
  | acceptFriendRequest auth id newId =>
      exact (Friends.acceptInternal_serves auth id newId).map _
  | declineFriendRequest auth id => exact (Friends.decline_serves auth id).map _
  | removeFriend auth other => exact (Friends.removeFriend_serves auth other).map _
  | heartbeat auth => exact (Presence.heartbeat_serves state auth _).map _
  | setStatus auth body => exact (Presence.setStatus_serves auth body).map _
  | bootstrap auth body => exact (Presence.bootstrap_serves auth body _).map _
  | signaling token connId => exact (Signaling.signalingWs_serves state token connId).map _
  | relay relaySessionId params =>
      exact (Relay.relayWs_serves state relaySessionId params).map _
  | cleanup retentionDays => exact (Cleanup.cleanupStaleJoinState_serves retentionDays).map _
  | tick elapsed =>
      have once : (Cleanup.tick elapsed).Serves .tick :=
        ⟨.inr (.inl rfl), fun _ => trivial⟩
      exact once.map _

theorem handle_serves (state : AppState) (request : Request) :
    (handle state request).Uses (Handler.Serving request.purpose) :=
  request.handler_serves state

theorem handle_avoids (state : AppState) {request : Request} {purpose : Purpose}
    (other : request.purpose ≠ purpose) (special : purpose ≠ .ordinary)
    (unlocked : purpose ≠ .transaction) :
    (handle state request).Uses fun operation : Operation => operation.purpose ≠ purpose := by
  refine (handle_serves state request).mono fun operation serving => ?_
  rcases serving with ordinary | own | ⟨transaction, -⟩
  · exact ordinary.symm ▸ special.symm
  · exact own.symm ▸ other
  · exact transaction.symm ▸ unlocked.symm

end Loontail
