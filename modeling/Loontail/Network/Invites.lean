import Loontail.Network.Join

/-! # World invites -/

namespace Loontail.Network.Invites

open Handler Friends Worlds Join

structure WorldInviteDto where
  id : Uuid
  status : RequestStatus
  worldSessionId : Uuid
  createdAt : Timestamp
  expiresAt : Timestamp
  requiresHostApproval : Bool
  inviter : UserDto
  invitee : UserDto
  host : UserDto
  deriving DecidableEq, Repr

def WorldInviteDto.from (row : InviteRow) : WorldInviteDto where
  id := row.invite.id
  status := row.invite.status
  worldSessionId := row.invite.worldSessionId
  createdAt := row.invite.createdAt
  expiresAt := row.invite.expiresAt
  requiresHostApproval := row.invite.status = .pendingApproval
  inviter := row.inviter
  invitee := row.invitee
  host := row.host

def loadInvite (id : Uuid) : Handler InviteRow := do
  let row ← query (.invite (.load id))
  okOr row (.notFound "invite not found")

def loadInviteForUpdate (tx : Transaction) (id : Uuid) : Handler InviteRow := do
  let row ← query (.invite (.lock tx id))
  okOr row (.notFound "invite not found")

/-- The status of a new invite: the host invites their own friends directly, a
friend of theirs may invite under `friends_of_friends`, and an invitee unknown
to the host waits for the host's approval. -/
def initialStatus (world : WorldSession) (caller invitee : Uuid) : Handler RequestStatus :=
  if caller = world.hostUserId then do
    let friends ← areFriends world.hostUserId invitee
    refuse (!friends) .forbidden
    pure .pending
  else do
    refuse (world.invitePolicy ≠ .friendsOfFriends) .forbidden
    let trusted ← areFriends world.hostUserId caller
    refuse (!trusted) .forbidden
    let friends ← areFriends caller invitee
    refuse (!friends) .forbidden
    let direct ← areFriends world.hostUserId invitee
    pure (if direct then .pending else .pendingApproval)

/-- `POST /world-sessions/:id/invites`. -/
def create (state : AppState) (auth worldId invitee newId : Uuid) :
    Handler WorldInviteDto := do
  let world ← loadOpenWorldSession worldId
  let host := world.hostUserId
  refuse (invitee = auth) (.badRequest "you cannot invite yourself")
  refuse (invitee = host) (.badRequest "the host is already in the world")
  let known ← query (.friend (.userExists invitee))
  refuse (!known) (.notFound "user not found")
  let status ← initialStatus world auth invitee
  let expiresAt := (← now) + ttlOrElse state.config.inviteTtl 600
  let _ ← query (.invite (.reclaim worldId invitee))
  let inviteId ← insertUnique
    (.invite (.insert worldId host auth invitee status expiresAt newId))
    "an invite for this player is already pending"
  let dto ← WorldInviteDto.from <$> loadInvite inviteId
  if status = .pending then
    sendTo invitee (.worldInvite inviteId worldId dto.inviter dto.host)
    pure dto
  else
    sendTo host (.inviteApprovalRequest inviteId worldId dto.inviter dto.invitee)
    pure dto

/-- The friend-of-friend chain of a guest-issued invite; an invite of the host
passes. -/
def requireChain (world : WorldSession) (invite : WorldInvite) : Handler Unit :=
  whenever (invite.inviterUserId ≠ invite.hostUserId) do
    refuse (world.invitePolicy ≠ .friendsOfFriends) .forbidden
    let trusted ← areFriends invite.hostUserId invite.inviterUserId
    refuse (!trusted) .forbidden
    let friends ← areFriends invite.inviterUserId invite.inviteeUserId
    refuse (!friends) .forbidden

/-- The transaction of `accept`. -/
def admitInvitee (state : AppState) (auth id : Uuid) (draw : TicketDraw) :
    Handler (WorldInvite × JoinTicketDto) :=
  transactionally fun tx => do
    let row ← InviteRow.invite <$> loadInviteForUpdate tx id
    refuse (row.inviteeUserId ≠ auth) .forbidden
    refuse (row.status ≠ .pending) (.conflict "invite is not ready to accept")
    let time ← now
    refuse (row.expiresAt ≤ time) (.conflict "invite has expired")
    let world ← loadOpenWorldSession row.worldSessionId
    requireChain world row
    refuse (world.currentPlayers ≥ world.maxPlayers) (.conflict "world is full")
    let expiresAt := (← now) + ttlOrElse state.config.joinTicketTtl 60
    let context ← query (.invite (.commitAccept tx id row.inviteeUserId row.hostUserId
      row.worldSessionId draw (state.hashToken draw.token) expiresAt))
    let context ← okOr context (.conflict "invite is not ready to accept")
    pure (row, joinTicketDto draw row.hostUserId row.worldSessionId expiresAt context)

/-- `POST /invites/:id/accept` — the invitee accepts and the host is cued. -/
def accept (state : AppState) (auth id : Uuid) (draw : TicketDraw) :
    Handler JoinTicketDto := do
  let (row, ticket) ← admitInvitee state auth id draw
  let guest ← fetchUserDto row.inviteeUserId
  sendTo row.hostUserId (.guestArriving ticket.relaySessionId row.worldSessionId guest)
  pure ticket

/-- `POST /invites/:id/decline`. -/
def decline (auth id : Uuid) : Handler WorldInviteDto := do
  let row ← InviteRow.invite <$> loadInvite id
  refuse (row.inviteeUserId ≠ auth) .forbidden
  refuse (row.status ≠ .pending) (.conflict "invite is not pending")
  let transitioned ← query (.invite (.decline id))
  refuse (transitioned = 0) (.conflict "invite is not pending")
  WorldInviteDto.from <$> loadInvite id

/-- `POST /invites/:id/approve` — the host releases a guest-issued invite. -/
def approve (auth id : Uuid) : Handler WorldInviteDto := do
  let row ← InviteRow.invite <$> loadInvite id
  refuse (row.hostUserId ≠ auth) .forbidden
  refuse (row.status ≠ .pendingApproval) (.conflict "invite is not awaiting approval")
  let time ← now
  refuse (row.expiresAt ≤ time) (.conflict "invite has expired")
  let transitioned ← query (.invite (.approve id))
  refuse (transitioned = 0) (.conflict "invite is not awaiting approval")
  let dto ← WorldInviteDto.from <$> loadInvite id
  sendTo row.inviteeUserId (.worldInvite id row.worldSessionId dto.inviter dto.host)
  pure dto

/-- `DELETE /invites/:id` — the host or the inviter cancels an active invite. -/
def revoke (auth id : Uuid) : Handler Unit := do
  let row ← InviteRow.invite <$> loadInvite id
  refuse (row.hostUserId ≠ auth && row.inviterUserId ≠ auth) .forbidden
  let revoked ← query (.invite (.revoke id))
  refuse (revoked = 0) (.conflict "invite is no longer active")

/-! ## Footprints -/

theorem initialStatus_serves (world : WorldSession) (caller invitee : Uuid)
    (purpose : Purpose) : (initialStatus world caller invitee).Serves purpose := by
  simp [Serves, uses_iff, initialStatus, areFriends, forall_except, Serving,
    Operation.purpose]

theorem create_serves (state : AppState) (auth worldId invitee newId : Uuid) :
    (create state auth worldId invitee newId).Serves .invite := by
  have status (world : WorldSession) := initialStatus_serves world auth invitee .invite
  simp [Serves, uses_iff, create, loadOpenWorldSession, loadInvite, forall_except, Serving,
    Operation.purpose, (status _).meets]

theorem requireChain_serves (world : WorldSession) (invite : WorldInvite)
    (purpose : Purpose) : (requireChain world invite).Serves purpose := by
  simp [Serves, uses_iff, requireChain, areFriends, forall_except, Serving,
    Operation.purpose]

theorem accept_serves (state : AppState) (auth id : Uuid) (draw : TicketDraw) :
    (accept state auth id draw).Serves .acceptInvite := by
  have chain (world : WorldSession) (invite : WorldInvite) :=
    requireChain_serves world invite .acceptInvite
  simp [Serves, uses_iff, accept, admitInvitee, loadOpenWorldSession, loadInviteForUpdate,
    fetchUserDto, forall_except, Serving, Operation.purpose, Purpose.locks,
    (chain _ _).meets]

theorem decline_serves (auth id : Uuid) (purpose : Purpose) :
    (decline auth id).Serves purpose := by
  simp [Serves, uses_iff, decline, loadInvite, forall_except, Serving, Operation.purpose]

theorem approve_serves (auth id : Uuid) : (approve auth id).Serves .approveInvite := by
  simp [Serves, uses_iff, approve, loadInvite, forall_except, Serving, Operation.purpose]

theorem revoke_serves (auth id : Uuid) (purpose : Purpose) :
    (revoke auth id).Serves purpose := by
  simp [Serves, uses_iff, revoke, loadInvite, forall_except, Serving, Operation.purpose]

end Loontail.Network.Invites
