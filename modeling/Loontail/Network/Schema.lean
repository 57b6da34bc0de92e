import Loontail.Core.Models
import Loontail.Relational.Table

/-! # The tables of the network domain

Each row type has the columns the network handlers read or write, and carries
its table's CHECK constraint as a proof. Each layout gives the table's primary
key and its partial unique index, as the migrations declare them. Foreign keys
are left out: no modelled operation deletes a user or a world. -/

namespace Loontail

open Relational

structure User where
  id : Uuid
  minecraftUuid : Option String
  username : String
  accountType : Option String
  xuid : Option String
  clientId : Option String
  blocked : Bool
  lastSeenAt : Timestamp
  updatedAt : Timestamp
  deriving DecidableEq, Repr

def User.dto (user : User) : UserDto where
  id := user.id
  minecraftUuid := user.minecraftUuid
  username := user.username

/-- `users_minecraft_uuid_key`: unique where it is set. -/
@[reducible] def userLayout : Layout User Uuid String where
  key := User.id
  slot := User.minecraftUuid

structure Session where
  tokenHash : String
  userId : Uuid
  expiresAt : Timestamp
  revokedAt : Option Timestamp
  deriving DecidableEq, Repr

@[reducible] def sessionLayout : Layout Session String Empty where
  key := Session.tokenHash
  slot := fun _ => none

structure FriendRequest where
  id : Uuid
  fromUserId : Uuid
  toUserId : Uuid
  status : RequestStatus
  createdAt : Timestamp
  updatedAt : Timestamp
  notSelf : fromUserId ≠ toUserId
  deriving DecidableEq, Repr

/-- `friend_requests_pending_unique`: one pending request per ordered pair. -/
@[reducible] def friendRequestLayout : Layout FriendRequest Uuid (Uuid × Uuid) where
  key := FriendRequest.id
  slot := fun request =>
    if request.status = .pending then some (request.fromUserId, request.toUserId)
    else none

/-- One row per pair of friends, the smaller identifier first. -/
structure Friendship where
  id : Uuid
  userAId : Uuid
  userBId : Uuid
  ordered : userAId < userBId
  deriving DecidableEq, Repr

@[reducible] def friendshipLayout : Layout Friendship Uuid (Uuid × Uuid) where
  key := Friendship.id
  slot := fun friendship => some (friendship.userAId, friendship.userBId)

structure Presence where
  userId : Uuid
  status : PresenceStatus
  lastHeartbeatAt : Timestamp
  minecraftVersion : Option String
  modVersion : Option String
  loader : Option String
  currentWorldSessionId : Option Uuid
  updatedAt : Timestamp
  deriving DecidableEq, Repr

@[reducible] def presenceLayout : Layout Presence Uuid Empty where
  key := Presence.userId
  slot := fun _ => none

structure WorldSession where
  id : Uuid
  hostUserId : Uuid
  status : WorldStatus
  maxPlayers : Int
  currentPlayers : Int
  invitePolicy : InvitePolicy
  createdAt : Timestamp
  closedAt : Option Timestamp
  deriving DecidableEq, Repr

/-- `world_sessions_one_open_per_host`. -/
@[reducible] def worldSessionLayout : Layout WorldSession Uuid Uuid where
  key := WorldSession.id
  slot := fun world => if world.status = .open then some world.hostUserId else none

structure JoinRequest where
  id : Uuid
  requesterUserId : Uuid
  hostUserId : Uuid
  worldSessionId : Uuid
  status : RequestStatus
  expiresAt : Timestamp
  createdAt : Timestamp
  updatedAt : Timestamp
  deriving DecidableEq, Repr

/-- `join_requests_pending_unique`: one pending request per world and requester. -/
@[reducible] def joinRequestLayout : Layout JoinRequest Uuid (Uuid × Uuid) where
  key := JoinRequest.id
  slot := fun request =>
    if request.status = .pending then
      some (request.worldSessionId, request.requesterUserId)
    else none

structure JoinTicket where
  id : Uuid
  userId : Uuid
  worldSessionId : Uuid
  tokenHash : String
  expiresAt : Timestamp
  consumedAt : Option Timestamp
  createdAt : Timestamp
  deriving DecidableEq, Repr

@[reducible] def joinTicketLayout : Layout JoinTicket Uuid String where
  key := JoinTicket.id
  slot := fun ticket => some ticket.tokenHash

theorem consumed_key {selected : JoinTicket → Bool} {now : Timestamp} (ticket : JoinTicket)
    (_ : selected ticket = true) :
    joinTicketLayout.key { ticket with consumedAt := some now } = joinTicketLayout.key ticket :=
  rfl

theorem consumed_slot {selected : JoinTicket → Bool} {now : Timestamp} (ticket : JoinTicket)
    (_ : selected ticket = true) :
    joinTicketLayout.slot { ticket with consumedAt := some now } =
        joinTicketLayout.slot ticket ∨
      joinTicketLayout.slot { ticket with consumedAt := some now } = none :=
  .inl rfl

structure RelaySession where
  id : Uuid
  worldSessionId : Uuid
  hostUserId : Uuid
  guestUserId : Option Uuid
  joinTicketId : Option Uuid
  status : RelayStatus
  createdAt : Timestamp
  closedAt : Option Timestamp
  deriving DecidableEq, Repr

@[reducible] def relaySessionLayout : Layout RelaySession Uuid Empty where
  key := RelaySession.id
  slot := fun _ => none

structure WorldInvite where
  id : Uuid
  worldSessionId : Uuid
  hostUserId : Uuid
  inviterUserId : Uuid
  inviteeUserId : Uuid
  status : RequestStatus
  expiresAt : Timestamp
  createdAt : Timestamp
  updatedAt : Timestamp
  notSelf : inviterUserId ≠ inviteeUserId
  deriving DecidableEq, Repr

/-- `world_invites_active_unique`: one active invite per world and invitee. -/
@[reducible] def worldInviteLayout : Layout WorldInvite Uuid (Uuid × Uuid) where
  key := WorldInvite.id
  slot := fun invite =>
    if invite.status.isActive then
      some (invite.worldSessionId, invite.inviteeUserId)
    else none

structure Database where
  users : Table userLayout
  sessions : Table sessionLayout
  friendRequests : Table friendRequestLayout
  friendships : Table friendshipLayout
  presence : Table presenceLayout
  worldSessions : Table worldSessionLayout
  joinRequests : Table joinRequestLayout
  joinTickets : Table joinTicketLayout
  relaySessions : Table relaySessionLayout
  worldInvites : Table worldInviteLayout

def Database.empty : Database where
  users := .empty
  sessions := .empty
  friendRequests := .empty
  friendships := .empty
  presence := .empty
  worldSessions := .empty
  joinRequests := .empty
  joinTickets := .empty
  relaySessions := .empty
  worldInvites := .empty

/-! ## Membership predicates -/

/-- `are_friends`: a pair is stored once, so it is looked up in order. -/
def Database.areFriends (database : Database) (left right : Uuid) : Bool :=
  database.friendships.rows.any fun friendship =>
    friendship.userAId = min left right && friendship.userBId = max left right

theorem Database.areFriends_comm (database : Database) (left right : Uuid) :
    database.areFriends left right = database.areFriends right left := by
  simp only [areFriends, min_comm, max_comm]

end Loontail
