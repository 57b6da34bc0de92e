import Loontail.Network.Statements.Worlds

/-! # Statements on friends and on the admission to worlds -/

/-! ## Users, friendships and friend requests -/

namespace Loontail

open Relational

structure FriendRequestRow where
  request : FriendRequest
  fromUser : UserDto
  toUser : UserDto
  deriving DecidableEq, Repr

namespace Sql

def friendIds (userId : Uuid) (database : Database) : List Uuid :=
  (database.friendships.rows.filter fun friendship =>
    friendship.userAId = userId || friendship.userBId = userId).map fun friendship =>
      if friendship.userAId = userId then friendship.userBId else friendship.userAId

def selectUser (id : Uuid) (database : Database) : Option UserDto :=
  (database.users.find id).map User.dto

def pendingRequest (fromUserId toUserId : Uuid) (database : Database) : Option Uuid :=
  (database.friendRequests.rows.find? fun request =>
    request.fromUserId = fromUserId && request.toUserId = toUserId &&
      request.status = .pending).map (·.id)

def insertFriendRequest (now : Timestamp) (fromUserId toUserId newId : Uuid)
    (database : Database) : Executed Uuid :=
  if notSelf : fromUserId ≠ toUserId then
    match database.friendRequests.insert {
        id := newId, fromUserId, toUserId, status := .pending
        createdAt := now, updatedAt := now, notSelf } with
    | some friendRequests => .ok (newId, { database with friendRequests })
    | none => .error .uniqueViolation
  else .error .checkViolation

/-- `FRIEND_REQUEST_SELECT`: the inner joins keep the row while both users exist. -/
def loadFriendRequest (id : Uuid) (database : Database) : Option FriendRequestRow := do
  let request ← database.friendRequests.find id
  let fromUser ← selectUser request.fromUserId database
  let toUser ← selectUser request.toUserId database
  some { request, fromUser, toUser }

/-- `INSERT … ON CONFLICT DO NOTHING` of the pair in canonical order. -/
def insertFriendship (left right newId : Uuid) (database : Database) :
    Executed Unit :=
  if database.areFriends left right then .ok ((), database)
  else if ordered : min left right < max left right then
    match database.friendships.insert {
        id := newId, userAId := min left right, userBId := max left right, ordered } with
    | some friendships => .ok ((), { database with friendships })
    | none => .error .uniqueViolation
  else .error .checkViolation

/-- The writes of `accept_internal` up to its commit. -/
def acceptFriendRequest (now : Timestamp) (id fromUserId toUserId newId : Uuid)
    (database : Database) : Executed Unit :=
  insertFriendship fromUserId toUserId newId { database with
    friendRequests := database.friendRequests.update
      (fun request => request.id = id)
      (fun request => { request with status := .accepted, updatedAt := now }) }

def declineFriendRequest (now : Timestamp) (id : Uuid) (database : Database) :
    Nat × Database :=
  let selected := fun request : FriendRequest => request.id = id
  (database.friendRequests.affected selected,
    { database with
      friendRequests := database.friendRequests.update selected
        (fun request => { request with status := .declined, updatedAt := now }) })

def removeFriendship (left right : Uuid) (database : Database) : Nat × Database :=
  let selected := fun friendship : Friendship =>
    friendship.userAId = min left right && friendship.userBId = max left right
  (database.friendships.affected selected,
    { database with friendships := database.friendships.delete selected })

end Sql

inductive FriendStatement where
  | userExists (id : Uuid)
  | fetchUser (id : Uuid)
  | areFriends (left right : Uuid)
  | friendIds (userId : Uuid)
  | pendingRequest (fromUserId toUserId : Uuid)
  | insertRequest (fromUserId toUserId newId : Uuid)
  | loadRequest (id : Uuid)
  | lockRequest (transaction : Transaction) (id : Uuid)
  | commitAccept (transaction : Transaction) (id fromUserId toUserId newId : Uuid)
  | decline (id : Uuid)
  | remove (left right : Uuid)
  deriving DecidableEq, Repr

namespace FriendStatement

@[reducible] def Reply : FriendStatement → Type
  | userExists _ => Bool
  | fetchUser _ => Option UserDto
  | areFriends .. => Bool
  | friendIds _ => List Uuid
  | pendingRequest .. => Option Uuid
  | insertRequest .. => Uuid
  | loadRequest _ => Option FriendRequestRow
  | lockRequest .. => Option FriendRequest
  | commitAccept .. => Unit
  | decline _ => Nat
  | remove .. => Nat

def execute (now : Timestamp) (database : Database) :
    (statement : FriendStatement) → Executed statement.Reply
  | userExists id => .ok ((database.users.find id).isSome, database)
  | fetchUser id => .ok (Sql.selectUser id database, database)
  | areFriends left right => .ok (database.areFriends left right, database)
  | friendIds userId => .ok (Sql.friendIds userId database, database)
  | pendingRequest fromUserId toUserId =>
      .ok (Sql.pendingRequest fromUserId toUserId database, database)
  | insertRequest fromUserId toUserId newId =>
      Sql.insertFriendRequest now fromUserId toUserId newId database
  | loadRequest id => .ok (Sql.loadFriendRequest id database, database)
  | lockRequest _ id => .ok (database.friendRequests.find id, database)
  | commitAccept transaction id fromUserId toUserId newId =>
      Sql.acceptFriendRequest transaction.startedAt id fromUserId toUserId newId database
  | decline id => .ok (Sql.declineFriendRequest now id database)
  | remove left right => .ok (Sql.removeFriendship left right database)

end FriendStatement

/-! ## Join tickets, join requests and world invites -/

structure TicketDraw where
  token : String
  ticketId : Uuid
  relaySessionId : Uuid
  deriving DecidableEq, Repr

structure TicketContext where
  invitePolicy : InvitePolicy
  hostMinecraftVersion : Option String
  hostLoader : Option String
  deriving DecidableEq, Repr

structure JoinRequestRow where
  request : JoinRequest
  requester : UserDto
  host : UserDto
  deriving DecidableEq, Repr

structure InviteRow where
  invite : WorldInvite
  inviter : UserDto
  invitee : UserDto
  host : UserDto
  deriving DecidableEq, Repr

namespace Sql

/-! ## Tickets -/

/-- A guest who is in the world now and whose heartbeat is recent. -/
def isLiveMember (now : Timestamp) (timeout : Nat) (worldId guestId : Uuid)
    (database : Database) : Bool :=
  (database.relaySessions.rows.any fun relay =>
    relay.worldSessionId = worldId && relay.status = .active &&
      relay.guestUserId = some guestId) &&
  database.presence.rows.any fun presence =>
    presence.userId = guestId && presence.status ≠ PresenceStatus.offline &&
      now - durationSeconds timeout < presence.lastHeartbeatAt

/-- `is_friend_of_active_member`. -/
def isFriendOfActiveMember (now : Timestamp) (timeout : Nat)
    (requester worldId : Uuid) (database : Database) : Bool :=
  (database.relaySessions.rows.filterMap (·.guestUserId)).any fun guestId =>
    isLiveMember now timeout worldId guestId database &&
      database.areFriends guestId requester

/-- `issue_ticket_and_relay_tx`: read the host's settings, insert the ticket,
insert its pending relay session. -/
def issueTicketAndRelay (now : Timestamp) (guestId hostId worldId : Uuid)
    (draw : TicketDraw) (tokenHash : String) (expiresAt : Timestamp)
    (database : Database) : Executed TicketContext :=
  match database.worldSessions.find worldId with
  | none => .error .rowNotFound
  | some world =>
      let hostPresence := database.presence.find world.hostUserId
      match database.joinTickets.insert {
          id := draw.ticketId, userId := guestId, worldSessionId := worldId
          tokenHash, expiresAt, consumedAt := none, createdAt := now } with
      | none => .error .uniqueViolation
      | some joinTickets =>
          match database.relaySessions.insert {
              id := draw.relaySessionId, worldSessionId := worldId
              hostUserId := hostId, guestUserId := some guestId
              joinTicketId := some draw.ticketId, status := .pending
              createdAt := now, closedAt := none } with
          | none => .error .uniqueViolation
          | some relaySessions =>
              .ok ({
                invitePolicy := world.invitePolicy
                hostMinecraftVersion := hostPresence.bind (·.minecraftVersion)
                hostLoader := hostPresence.bind (·.loader) },
                { database with joinTickets, relaySessions })

/-- `if transitioned.rows_affected() != 1 { return Err }`, and otherwise the ticket. -/
def mintWhenSettled (now : Timestamp) (guestId hostId worldId : Uuid) (draw : TicketDraw)
    (tokenHash : String) (expiresAt : Timestamp) (settled : Nat × Database) :
    Executed (Option TicketContext) :=
  if settled.1 = 1 then
    (issueTicketAndRelay now guestId hostId worldId draw tokenHash expiresAt
      settled.2).map fun (context, database) => (some context, database)
  else .ok (none, settled.2)

/-! ## Join requests -/

def joinRequestLapsed (now : Timestamp) (request : JoinRequest) : Bool :=
  request.status = .pending && request.expiresAt ≤ now

/-- Set the selected requests to `status`, which no request leaves `pending` by. -/
def settleJoinRequests (now : Timestamp) (status : RequestStatus)
    (settled : status ≠ .pending) (selected : JoinRequest → Bool)
    (database : Database) : Nat × Database :=
  (database.joinRequests.affected selected,
    { database with
      joinRequests := database.joinRequests.update selected
        (fun request => { request with status, updatedAt := now })
        (fun _ _ => rfl)
        (fun _ _ => .inr (by simp [settled])) })

theorem expired_ne_pending : RequestStatus.expired ≠ .pending := by decide

/-- Free the unique slot from a lapsed request for this world and requester. -/
def reclaimJoinRequests (now : Timestamp) (worldId requester : Uuid)
    (database : Database) : Nat × Database :=
  settleJoinRequests now .expired expired_ne_pending (fun request =>
    request.worldSessionId = worldId && request.requesterUserId = requester &&
      joinRequestLapsed now request) database

def insertJoinRequest (now : Timestamp) (requester hostId worldId : Uuid)
    (expiresAt : Timestamp) (newId : Uuid) (database : Database) : Executed Uuid :=
  match database.joinRequests.insert {
      id := newId, requesterUserId := requester, hostUserId := hostId
      worldSessionId := worldId, status := .pending, expiresAt
      createdAt := now, updatedAt := now } with
  | some joinRequests => .ok (newId, { database with joinRequests })
  | none => .error .uniqueViolation

def loadJoinRequest (id : Uuid) (database : Database) : Option JoinRequestRow := do
  let request ← database.joinRequests.find id
  let requester ← selectUser request.requesterUserId database
  let host ← selectUser request.hostUserId database
  some { request, requester, host }

/-- The writes of `accept` up to its commit: the conditional transition and,
when it changed the row, the ticket. -/
def acceptJoinRequest (now : Timestamp) (id guestId hostId worldId : Uuid)
    (draw : TicketDraw) (tokenHash : String) (expiresAt : Timestamp)
    (database : Database) : Executed (Option TicketContext) :=
  mintWhenSettled now guestId hostId worldId draw tokenHash expiresAt
    (settleJoinRequests now .accepted (by decide)
      (fun request => request.id = id && request.status = .pending) database)

def declineJoinRequest (now : Timestamp) (id : Uuid) (database : Database) :
    Nat × Database :=
  settleJoinRequests now .declined (by decide)
    (fun request => request.id = id && request.status = .pending) database

/-! ## World invites -/

def inviteLapsed (now : Timestamp) (invite : WorldInvite) : Bool :=
  invite.status.isActive && invite.expiresAt ≤ now

def settleInvites (now : Timestamp) (status : RequestStatus)
    (settled : status.isActive = false) (selected : WorldInvite → Bool)
    (database : Database) : Nat × Database :=
  (database.worldInvites.affected selected,
    { database with
      worldInvites := database.worldInvites.update selected
        (fun invite => { invite with status, updatedAt := now })
        (fun _ _ => rfl)
        (fun _ _ => .inr (by simp [settled])) })

theorem expired_inactive : RequestStatus.expired.isActive = false := rfl

/-- Free the unique slot from a lapsed invite for this world and invitee. -/
def reclaimInvites (now : Timestamp) (worldId invitee : Uuid)
    (database : Database) : Nat × Database :=
  settleInvites now .expired expired_inactive (fun invite =>
    invite.worldSessionId = worldId && invite.inviteeUserId = invitee &&
      inviteLapsed now invite) database

def insertInvite (now : Timestamp) (worldId hostId inviter invitee : Uuid)
    (status : RequestStatus) (expiresAt : Timestamp) (newId : Uuid)
    (database : Database) : Executed Uuid :=
  if notSelf : inviter ≠ invitee then
    match database.worldInvites.insert {
        id := newId, worldSessionId := worldId, hostUserId := hostId
        inviterUserId := inviter, inviteeUserId := invitee, status, expiresAt
        createdAt := now, updatedAt := now, notSelf } with
    | some worldInvites => .ok (newId, { database with worldInvites })
    | none => .error .uniqueViolation
  else .error .checkViolation

def loadInvite (id : Uuid) (database : Database) : Option InviteRow := do
  let invite ← database.worldInvites.find id
  let inviter ← selectUser invite.inviterUserId database
  let invitee ← selectUser invite.inviteeUserId database
  let host ← selectUser invite.hostUserId database
  some { invite, inviter, invitee, host }

/-- The writes of `accept` up to its commit. -/
def acceptInvite (now : Timestamp) (id guestId hostId worldId : Uuid)
    (draw : TicketDraw) (tokenHash : String) (expiresAt : Timestamp)
    (database : Database) : Executed (Option TicketContext) :=
  mintWhenSettled now guestId hostId worldId draw tokenHash expiresAt
    (settleInvites now .accepted rfl
      (fun invite => invite.id = id && invite.status = .pending) database)

def declineInvite (now : Timestamp) (id : Uuid) (database : Database) :
    Nat × Database :=
  settleInvites now .declined rfl
    (fun invite => invite.id = id && invite.status = .pending) database

def approveInvite (now : Timestamp) (id : Uuid) (database : Database) :
    Nat × Database :=
  let selected := fun invite : WorldInvite =>
    invite.id = id && invite.status = .pendingApproval
  (database.worldInvites.affected selected,
    { database with
      worldInvites := database.worldInvites.update selected
        (fun invite => { invite with status := .pending, updatedAt := now })
        (fun _ _ => rfl)
        (fun invite chosen => .inl (by
          have awaiting : invite.status = .pendingApproval := by
            simpa using (Bool.and_eq_true_iff.mp chosen).2
          simp [awaiting, RequestStatus.isActive])) })

def revokeInvite (now : Timestamp) (id : Uuid) (database : Database) :
    Nat × Database :=
  settleInvites now .revoked rfl
    (fun invite => invite.id = id && invite.status.isActive) database

end Sql

inductive JoinStatement where
  | isFriendOfActiveMember (timeout : Nat) (requester worldId : Uuid)
  | issueTicket (guestId hostId worldId : Uuid) (draw : TicketDraw)
      (tokenHash : String) (expiresAt : Timestamp)
  | reclaim (worldId requester : Uuid)
  | insert (requester hostId worldId : Uuid) (expiresAt : Timestamp) (newId : Uuid)
  | load (id : Uuid)
  | lock (transaction : Transaction) (id : Uuid)
  | commitAccept (transaction : Transaction) (id guestId hostId worldId : Uuid)
      (draw : TicketDraw) (tokenHash : String) (expiresAt : Timestamp)
  | decline (id : Uuid)
  deriving DecidableEq, Repr

namespace JoinStatement

@[reducible] def Reply : JoinStatement → Type
  | isFriendOfActiveMember .. => Bool
  | issueTicket .. => TicketContext
  | reclaim .. => Nat
  | insert .. => Uuid
  | load _ => Option JoinRequestRow
  | lock .. => Option JoinRequestRow
  | commitAccept .. => Option TicketContext
  | decline _ => Nat

def execute (now : Timestamp) (database : Database) :
    (statement : JoinStatement) → Executed statement.Reply
  | isFriendOfActiveMember timeout requester worldId =>
      .ok (Sql.isFriendOfActiveMember now timeout requester worldId database, database)
  | issueTicket guestId hostId worldId draw tokenHash expiresAt =>
      Sql.issueTicketAndRelay now guestId hostId worldId draw tokenHash expiresAt database
  | reclaim worldId requester =>
      .ok (Sql.reclaimJoinRequests now worldId requester database)
  | insert requester hostId worldId expiresAt newId =>
      Sql.insertJoinRequest now requester hostId worldId expiresAt newId database
  | load id => .ok (Sql.loadJoinRequest id database, database)
  | lock _ id => .ok (Sql.loadJoinRequest id database, database)
  | commitAccept transaction id guestId hostId worldId draw tokenHash expiresAt =>
      Sql.acceptJoinRequest transaction.startedAt id guestId hostId worldId draw
        tokenHash expiresAt database
  | decline id => .ok (Sql.declineJoinRequest now id database)

end JoinStatement

inductive InviteStatement where
  | reclaim (worldId invitee : Uuid)
  | insert (worldId hostId inviter invitee : Uuid) (status : RequestStatus)
      (expiresAt : Timestamp) (newId : Uuid)
  | load (id : Uuid)
  | lock (transaction : Transaction) (id : Uuid)
  | commitAccept (transaction : Transaction) (id guestId hostId worldId : Uuid)
      (draw : TicketDraw) (tokenHash : String) (expiresAt : Timestamp)
  | decline (id : Uuid)
  | approve (id : Uuid)
  | revoke (id : Uuid)
  deriving DecidableEq, Repr

namespace InviteStatement

@[reducible] def Reply : InviteStatement → Type
  | reclaim .. => Nat
  | insert .. => Uuid
  | load _ => Option InviteRow
  | lock .. => Option InviteRow
  | commitAccept .. => Option TicketContext
  | decline _ => Nat
  | approve _ => Nat
  | revoke _ => Nat

def execute (now : Timestamp) (database : Database) :
    (statement : InviteStatement) → Executed statement.Reply
  | reclaim worldId invitee => .ok (Sql.reclaimInvites now worldId invitee database)
  | insert worldId hostId inviter invitee status expiresAt newId =>
      Sql.insertInvite now worldId hostId inviter invitee status expiresAt newId database
  | load id => .ok (Sql.loadInvite id database, database)
  | lock _ id => .ok (Sql.loadInvite id database, database)
  | commitAccept transaction id guestId hostId worldId draw tokenHash expiresAt =>
      Sql.acceptInvite transaction.startedAt id guestId hostId worldId draw tokenHash
        expiresAt database
  | decline id => .ok (Sql.declineInvite now id database)
  | approve id => .ok (Sql.approveInvite now id database)
  | revoke id => .ok (Sql.revokeInvite now id database)

end InviteStatement

/-! ## The hourly cleanup and the restart reconciliation -/

def terminalJoinRequest (status : RequestStatus) : Bool :=
  status = .accepted || status = .declined || status = .expired

def terminalInvite (status : RequestStatus) : Bool :=
  status = .accepted || status = .declined || status = .revoked || status = .expired

theorem terminalInvite_eq (status : RequestStatus) :
    terminalInvite status = !status.isActive := by
  cases status <;> rfl

namespace Sql

/-- `now() - make_interval(days => retention_days)`. -/
def retentionCutoff (now : Timestamp) (retentionDays : Int) : Timestamp :=
  now - retentionDays * 86400 * microsecondsPerSecond

/-- Tickets are deleted once old and spent; their relay sessions keep their row
and lose the reference (`ON DELETE SET NULL`). -/
def deleteJoinTickets (now : Timestamp) (retentionDays : Int) (database : Database) :
    Nat × Database :=
  let selected := fun ticket : JoinTicket =>
    ticket.createdAt < retentionCutoff now retentionDays &&
      (ticket.consumedAt.isSome || ticket.expiresAt ≤ now)
  let deleted := (database.joinTickets.rows.filter selected).map (·.id)
  (database.joinTickets.affected selected,
    { database with
      joinTickets := database.joinTickets.delete selected
      relaySessions := database.relaySessions.update
        (fun relay => relay.joinTicketId.any fun ticketId => deleted.contains ticketId)
        (fun relay => { relay with joinTicketId := none }) })

def joinRequestStale (now : Timestamp) (retentionDays : Int) (request : JoinRequest) :
    Bool :=
  terminalJoinRequest request.status && request.updatedAt < retentionCutoff now retentionDays

def inviteStale (now : Timestamp) (retentionDays : Int) (invite : WorldInvite) : Bool :=
  terminalInvite invite.status && invite.updatedAt < retentionCutoff now retentionDays

def deleteJoinRequests (now : Timestamp) (retentionDays : Int) (database : Database) :
    Nat × Database :=
  (database.joinRequests.affected (joinRequestStale now retentionDays),
    { database with
      joinRequests := database.joinRequests.delete (joinRequestStale now retentionDays) })

def deleteInvites (now : Timestamp) (retentionDays : Int) (database : Database) :
    Nat × Database :=
  (database.worldInvites.affected (inviteStale now retentionDays),
    { database with
      worldInvites := database.worldInvites.delete (inviteStale now retentionDays) })

/-- The first statement of `reconcile_after_restart`. -/
def closeRelaySessions (now : Timestamp) (database : Database) : Nat × Database :=
  let selected := fun relay : RelaySession => decide (relay.status ≠ RelayStatus.closed)
  (database.relaySessions.affected selected,
    { database with
      relaySessions := database.relaySessions.update selected
        (fun relay => { relay with status := .closed, closedAt := some now }) })

/-- The second statement of `reconcile_after_restart`. -/
def resetPlayers (database : Database) : Nat × Database :=
  let selected := fun world : WorldSession => decide (world.status = .open)
  (database.worldSessions.affected selected,
    { database with
      worldSessions := database.worldSessions.update selected
        (fun world => { world with currentPlayers := 0 }) })

end Sql

inductive MaintenanceStatement where
  | expireJoinRequests
  | expireInvites
  | deleteJoinTickets (retentionDays : Int)
  | deleteJoinRequests (retentionDays : Int)
  | deleteInvites (retentionDays : Int)
  | closeRelaySessions
  | resetPlayers
  deriving DecidableEq, Repr

namespace MaintenanceStatement

@[reducible] def Reply (_ : MaintenanceStatement) : Type := Nat

def execute (now : Timestamp) (database : Database) :
    (statement : MaintenanceStatement) → Executed statement.Reply
  | expireJoinRequests =>
      .ok (Sql.settleJoinRequests now .expired Sql.expired_ne_pending
        (Sql.joinRequestLapsed now) database)
  | expireInvites =>
      .ok (Sql.settleInvites now .expired Sql.expired_inactive (Sql.inviteLapsed now) database)
  | deleteJoinTickets retentionDays =>
      .ok (Sql.deleteJoinTickets now retentionDays database)
  | deleteJoinRequests retentionDays =>
      .ok (Sql.deleteJoinRequests now retentionDays database)
  | deleteInvites retentionDays => .ok (Sql.deleteInvites now retentionDays database)
  | closeRelaySessions => .ok (Sql.closeRelaySessions now database)
  | resetPlayers => .ok (Sql.resetPlayers database)

end MaintenanceStatement

end Loontail
