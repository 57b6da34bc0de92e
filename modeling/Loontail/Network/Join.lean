import Loontail.Network.Friends
import Loontail.Network.Worlds

/-! # Join tickets and join requests -/

namespace Loontail.Network.Join

open Handler Friends Worlds

def fetchUserDto (id : Uuid) : Handler UserDto := do
  let user ← query (.friend (.fetchUser id))
  okOr user (.notFound "user not found")

def isFriendOfActiveMember (heartbeatTimeout : Nat) (requester worldId : Uuid) :
    Handler Bool :=
  query (.join (.isFriendOfActiveMember heartbeatTimeout requester worldId))

/-- The raw token is delivered once; the database keeps its hash. -/
def joinTicketDto (draw : TicketDraw) (hostId worldId : Uuid) (expiresAt : Timestamp)
    (context : TicketContext) : JoinTicketDto where
  ticket := draw.token
  relaySessionId := draw.relaySessionId
  worldSessionId := worldId
  hostUserId := hostId
  expiresAt := expiresAt
  invitePolicy := context.invitePolicy
  hostMinecraftVersion := context.hostMinecraftVersion
  hostLoader := context.hostLoader

def issueTicketAndRelay (state : AppState) (guestId hostId worldId : Uuid)
    (draw : TicketDraw) : Handler JoinTicketDto := do
  let expiresAt := (← now) + ttlOrElse state.config.joinTicketTtl 60
  let context ← query (.join (.issueTicket guestId hostId worldId draw
    (state.hashToken draw.token) expiresAt))
  pure (joinTicketDto draw hostId worldId expiresAt context)

/-- `POST /world-sessions/:id/join-ticket` — the host is `joinable`, so a friend
gets a ticket without approval. -/
def createJoinTicket (state : AppState) (auth worldId : Uuid) (draw : TicketDraw) :
    Handler JoinTicketDto := do
  let world ← loadOpenWorldSession worldId
  let host := world.hostUserId
  refuse (host = auth) (.badRequest "you cannot join your own world")
  let friends ← areFriends auth host
  refuse (!friends) .forbidden
  let status ← Presence.effectiveStatusFor state host
  refuse (status ≠ .joinable)
    (.conflict "host is not open for free join; send a join request instead")
  refuse (world.currentPlayers ≥ world.maxPlayers) (.conflict "world is full")
  let ticket ← issueTicketAndRelay state auth host worldId draw
  let guest ← fetchUserDto auth
  sendTo host (.guestArriving ticket.relaySessionId worldId guest)
  pure ticket

structure JoinRequestDto where
  id : Uuid
  status : RequestStatus
  worldSessionId : Uuid
  createdAt : Timestamp
  expiresAt : Timestamp
  requester : UserDto
  host : UserDto
  deriving DecidableEq, Repr

def JoinRequestDto.from (row : JoinRequestRow) : JoinRequestDto where
  id := row.request.id
  status := row.request.status
  worldSessionId := row.request.worldSessionId
  createdAt := row.request.createdAt
  expiresAt := row.request.expiresAt
  requester := row.requester
  host := row.host

def loadJoinRequest (id : Uuid) : Handler JoinRequestRow := do
  let row ← query (.join (.load id))
  okOr row (.notFound "join request not found")

def loadJoinRequestForUpdate (tx : Transaction) (id : Uuid) : Handler JoinRequestRow := do
  let row ← query (.join (.lock tx id))
  okOr row (.notFound "join request not found")

/-- A friend of the host may always ask to join; another player only under
`friends_of_friends`, as a friend of someone already in the world. -/
def requireLink (state : AppState) (world : WorldSession) (requester hostId : Uuid) :
    Handler Unit := do
  let direct ← areFriends requester hostId
  whenever (!direct) do
    refuse (world.invitePolicy ≠ .friendsOfFriends) .forbidden
    let viaMember ← isFriendOfActiveMember state.config.heartbeatTimeout requester world.id
    refuse (!viaMember) .forbidden

/-- `POST /world-sessions/:id/join-requests` — the host is in a world, so a
guest asks for approval. -/
def createJoinRequest (state : AppState) (auth worldId newId : Uuid) :
    Handler JoinRequestDto := do
  let world ← loadOpenWorldSession worldId
  let host := world.hostUserId
  refuse (host = auth) (.badRequest "you cannot join your own world")
  requireLink state world auth host
  let status ← Presence.effectiveStatusFor state host
  refuse (!status.isInWorld) (.conflict "host is not in a world")
  let expiresAt := (← now) + ttlOrElse state.config.joinRequestTtl 60
  let _ ← query (.join (.reclaim worldId auth))
  let id ← insertUnique (.join (.insert auth host worldId expiresAt newId))
    "a join request is already pending"
  let dto ← JoinRequestDto.from <$> loadJoinRequest id
  sendTo host (.joinRequest id worldId dto.requester)
  pure dto

/-- The transaction of `accept`. The ticket is written by its last statement,
which the row lock and the status condition guard. -/
def admitRequest (state : AppState) (auth id : Uuid) (draw : TicketDraw) :
    Handler (JoinRequest × JoinTicketDto) :=
  transactionally fun tx => do
    let row ← JoinRequestRow.request <$> loadJoinRequestForUpdate tx id
    refuse (row.hostUserId ≠ auth) .forbidden
    refuse (row.status ≠ .pending) (.conflict "join request is not pending")
    let time ← now
    refuse (row.expiresAt ≤ time) (.conflict "join request has expired")
    let world ← loadOpenWorldSession row.worldSessionId
    requireLink state world row.requesterUserId row.hostUserId
    refuse (world.currentPlayers ≥ world.maxPlayers) (.conflict "world is full")
    let expiresAt := (← now) + ttlOrElse state.config.joinTicketTtl 60
    let context ← query (.join (.commitAccept tx id row.requesterUserId row.hostUserId
      row.worldSessionId draw (state.hashToken draw.token) expiresAt))
    let context ← okOr context (.conflict "join request is not pending")
    pure (row, joinTicketDto draw row.hostUserId row.worldSessionId expiresAt context)

/-- `POST /join-requests/:id/accept` — the host approves; the guest receives a
ticket over signaling. -/
def accept (state : AppState) (auth id : Uuid) (draw : TicketDraw) :
    Handler JoinRequestDto := do
  let (row, ticket) ← admitRequest state auth id draw
  let guest ← fetchUserDto row.requesterUserId
  sendTo row.requesterUserId (.joinRequestAccepted id ticket)
  sendTo row.hostUserId (.guestArriving ticket.relaySessionId row.worldSessionId guest)
  JoinRequestDto.from <$> loadJoinRequest id

/-- `POST /join-requests/:id/decline` — the host rejects the request. -/
def decline (auth id : Uuid) : Handler JoinRequestDto := do
  let row ← JoinRequestRow.request <$> loadJoinRequest id
  refuse (row.hostUserId ≠ auth) .forbidden
  refuse (row.status ≠ .pending) (.conflict "join request is not pending")
  let transitioned ← query (.join (.decline id))
  refuse (transitioned = 0) (.conflict "join request is not pending")
  let dto ← JoinRequestDto.from <$> loadJoinRequest id
  sendTo row.requesterUserId (.joinRequestDeclined id)
  pure dto

/-! ## Footprints -/

theorem createJoinTicket_serves (state : AppState) (auth worldId : Uuid)
    (draw : TicketDraw) :
    (createJoinTicket state auth worldId draw).Serves .joinTicket := by
  have status (userId : Uuid) :=
    Presence.effectiveStatusFor_serves state userId .joinTicket
  simp [Serves, uses_iff, createJoinTicket, loadOpenWorldSession, areFriends,
    issueTicketAndRelay, fetchUserDto, forall_except, Serving, Operation.purpose,
    (status _).meets]

theorem requireLink_serves (state : AppState) (world : WorldSession)
    (requester hostId : Uuid) (purpose : Purpose) :
    (requireLink state world requester hostId).Serves purpose := by
  simp [Serves, uses_iff, requireLink, areFriends, isFriendOfActiveMember, forall_except,
    Serving, Operation.purpose]

theorem createJoinRequest_serves (state : AppState) (auth worldId newId : Uuid) :
    (createJoinRequest state auth worldId newId).Serves .joinRequest := by
  have status (userId : Uuid) :=
    Presence.effectiveStatusFor_serves state userId .joinRequest
  have link (world : WorldSession) (hostId : Uuid) :=
    requireLink_serves state world auth hostId .joinRequest
  simp [Serves, uses_iff, createJoinRequest, loadOpenWorldSession, loadJoinRequest,
    forall_except, Serving, Operation.purpose, (status _).meets, (link _ _).meets]

theorem accept_serves (state : AppState) (auth id : Uuid) (draw : TicketDraw) :
    (accept state auth id draw).Serves .acceptJoinRequest := by
  have link (world : WorldSession) (requester hostId : Uuid) :=
    requireLink_serves state world requester hostId .acceptJoinRequest
  simp [Serves, uses_iff, accept, admitRequest, loadOpenWorldSession, loadJoinRequest,
    loadJoinRequestForUpdate, fetchUserDto, forall_except, Serving, Operation.purpose,
    Purpose.locks, (link _ _ _).meets]

theorem decline_serves (auth id : Uuid) (purpose : Purpose) :
    (decline auth id).Serves purpose := by
  simp [Serves, uses_iff, decline, loadJoinRequest, forall_except, Serving,
    Operation.purpose]

end Loontail.Network.Join
