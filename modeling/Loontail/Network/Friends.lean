import Loontail.Network.Presence

/-! # Friendships and friend requests -/

namespace Loontail.Network.Friends

open Handler

structure FriendRequestDto where
  id : Uuid
  status : RequestStatus
  createdAt : Timestamp
  fromUser : UserDto
  toUser : UserDto
  deriving DecidableEq, Repr

def FriendRequestDto.from (row : FriendRequestRow) : FriendRequestDto where
  id := row.request.id
  status := row.request.status
  createdAt := row.request.createdAt
  fromUser := row.fromUser
  toUser := row.toUser

def areFriends (left right : Uuid) : Handler Bool :=
  query (.friend (.areFriends left right))

def loadRequest (id : Uuid) : Handler FriendRequestRow := do
  let row ← query (.friend (.loadRequest id))
  okOr row (.notFound "friend request not found")

def acceptInternal (me requestId newId : Uuid) : Handler FriendRequestDto := do
  let request ← transactionally fun tx => do
    let request ← query (.friend (.lockRequest tx requestId))
    let request ← okOr request (.notFound "friend request not found")
    refuse (request.toUserId ≠ me) .forbidden
    refuse (request.status ≠ .pending) (.conflict "request is not pending")
    query (.friend (.commitAccept tx requestId request.fromUserId request.toUserId newId))
    pure request
  let dto ← FriendRequestDto.from <$> loadRequest requestId
  sendTo request.fromUserId (.friendRequestAccepted requestId dto.toUser)
  logged (Presence.broadcastPresence request.fromUserId)
  logged (Presence.broadcastPresence request.toUserId)
  pure dto

def insertRequest (me target newId : Uuid) : Handler FriendRequestDto := do
  let requestId ← insertUnique (.friend (.insertRequest me target newId))
    "a request is already pending"
  let dto ← FriendRequestDto.from <$> loadRequest requestId
  sendTo target (.friendRequest requestId dto.fromUser)
  pure dto

/-- `POST /friends/requests` — accepts the target's own pending request to the
caller when there is one. -/
def createRequest (me target newId : Uuid) : Handler FriendRequestDto := do
  refuse (me = target) (.badRequest "you cannot add yourself")
  let known ← query (.friend (.userExists target))
  refuse (!known) (.notFound "user not found")
  let friends ← areFriends me target
  refuse friends (.conflict "you are already friends")
  match ← query (.friend (.pendingRequest target me)) with
  | some reverseId => acceptInternal me reverseId newId
  | none => insertRequest me target newId

/-- `POST /friends/requests/:id/accept`. -/
def accept (auth id newId : Uuid) : Handler FriendRequestDto :=
  acceptInternal auth id newId

/-- `POST /friends/requests/:id/decline`. -/
def decline (auth id : Uuid) : Handler FriendRequestDto := do
  let row ← loadRequest id
  refuse (row.toUser.id ≠ auth) .forbidden
  refuse (row.request.status ≠ .pending) (.conflict "request is not pending")
  let _ ← query (.friend (.decline id))
  sendTo row.fromUser.id (.friendRequestDeclined id)
  FriendRequestDto.from <$> loadRequest id

/-- `DELETE /friends/:userId`. -/
def removeFriend (auth other : Uuid) : Handler Unit := do
  let removed ← query (.friend (.remove auth other))
  refuse (removed = 0) (.notFound "friendship not found")
  sendTo other (.friendRemoved auth)

/-! ## Footprints -/

theorem acceptInternal_serves (me requestId newId : Uuid) :
    (acceptInternal me requestId newId).Serves .friendRequest := by
  have last (userId : Uuid) := Presence.broadcastPresence_serves userId .friendRequest
  simp [Serves, uses_iff, acceptInternal, loadRequest, forall_except, Serving, Operation.purpose,
    Purpose.locks, (last _).meets]

theorem createRequest_serves (me target newId : Uuid) :
    (createRequest me target newId).Serves .friendRequest := by
  simp only [Serves, uses_iff, createRequest, areFriends, meets_bind, meets_refuse,
    meets_query, forall_except]
  refine ⟨fun _ => trivial, fun _ => ⟨.inl rfl, fun _ => ⟨fun _ => trivial, fun _ =>
    ⟨.inl rfl, fun _ => ⟨fun _ => trivial, fun _ => ⟨.inl rfl, fun reverse => ?_,
      fun _ => trivial⟩⟩, fun _ => trivial⟩⟩, fun _ => trivial⟩⟩
  cases reverse with
  | some reverseId => exact uses_iff.mp (acceptInternal_serves me reverseId newId)
  | none =>
      simp [insertRequest, loadRequest, forall_except, Serving, Operation.purpose]

theorem decline_serves (auth id : Uuid) : (decline auth id).Serves .friendRequest := by
  simp [Serves, uses_iff, decline, loadRequest, forall_except, Serving, Operation.purpose]

theorem removeFriend_serves (auth other : Uuid) :
    (removeFriend auth other).Serves .removeFriend := by
  simp [Serves, uses_iff, removeFriend, forall_except, Serving, Operation.purpose]

end Loontail.Network.Friends

/-! ## Friends with their current statuses -/

namespace Loontail

open Relational

/-- One row of the query. Without a presence row its columns are null. -/
structure FriendPresenceRow where
  id : Uuid
  minecraftUuid : Option String
  username : String
  status : Option PresenceStatus
  lastHeartbeatAt : Option Timestamp
  currentWorldSessionId : Option Uuid
  minecraftVersion : Option String
  loader : Option String
  guestWorldId : Option Uuid
  deriving DecidableEq, Repr

namespace Sql

def guestSessions (userId : Uuid) (database : Database) : List RelaySession :=
  database.relaySessions.rows.filter fun relay =>
    relay.guestUserId = some userId && relay.status = .active &&
      database.worldSessions.rows.any fun world =>
        world.id = relay.worldSessionId && world.status = .open &&
          world.invitePolicy = .friendsOfFriends

/-- `ORDER BY rs.created_at DESC LIMIT 1`. Which of several equally recent sessions comes
first is the database's choice. -/
def IsGuestWorld (userId : Uuid) (database : Database) : Option Uuid → Prop
  | none => guestSessions userId database = []
  | some worldId => ∃ relay ∈ guestSessions userId database, relay.worldSessionId = worldId ∧
      ∀ other ∈ guestSessions userId database, other.createdAt ≤ relay.createdAt

/-- The rows of the user's friends, `guestWorld` being what the lateral join finds for
each. The order of their names is left out: nothing depends on it. -/
def friendPresenceRows (guestWorld : Uuid → Option Uuid) (userId : Uuid)
    (database : Database) : List FriendPresenceRow :=
  (friendIds userId database).filterMap fun friendId =>
    (database.users.find friendId).map fun user =>
      let presence := database.presence.find friendId
      { id := user.id
        minecraftUuid := user.minecraftUuid
        username := user.username
        status := presence.map (·.status)
        lastHeartbeatAt := presence.map (·.lastHeartbeatAt)
        currentWorldSessionId := presence.bind (·.currentWorldSessionId)
        minecraftVersion := presence.bind (·.minecraftVersion)
        loader := presence.bind (·.loader)
        guestWorldId := guestWorld user.id }

end Sql

namespace Network.Presence

/-- A friend who is an active guest in a friends-of-friends world surfaces as in-world
pointing at that world, so the viewer can ask to join. -/
def deriveFriendStatus (base : PresenceStatus) (guestWorldId currentWorldSessionId : Option Uuid) :
    PresenceStatus × Option Uuid :=
  match guestWorldId with
  | some world =>
      if base ≠ .offline then (.inWorld, some world)
      else if base.isInWorld then (base, currentWorldSessionId) else (base, none)
  | none => if base.isInWorld then (base, currentWorldSessionId) else (base, none)

structure FriendPresence where
  user : UserDto
  status : PresenceStatus
  currentWorldSessionId : Option Uuid
  minecraftVersion : Option String
  loader : Option String
  deriving DecidableEq, Repr

def FriendPresence.from (now : Timestamp) (timeout : Nat) (row : FriendPresenceRow) :
    FriendPresence :=
  let base := match row.status, row.lastHeartbeatAt with
    | some status, some heartbeat => effectiveStatus now status heartbeat timeout
    | _, _ => .offline
  let derived := deriveFriendStatus base row.guestWorldId row.currentWorldSessionId
  { user := { id := row.id, minecraftUuid := row.minecraftUuid, username := row.username }
    status := derived.1
    currentWorldSessionId := derived.2
    minecraftVersion := row.minecraftVersion
    loader := row.loader }

/-- `friends_with_presence`, every reading of the clock being the same. -/
def friendsWithPresence (now : Timestamp) (timeout : Nat) (guestWorld : Uuid → Option Uuid)
    (userId : Uuid) (database : Database) : List FriendPresence :=
  (Sql.friendPresenceRows guestWorld userId database).map (FriendPresence.from now timeout)

theorem deriveFriendStatus_guest {base : PresenceStatus} {world : Uuid}
    {currentWorldSessionId : Option Uuid}
    (shown : (deriveFriendStatus base (some world) currentWorldSessionId).1 = .inWorld) :
    base ≠ .offline := by
  rintro rfl
  cases shown

theorem effectiveStatus_online {now lastHeartbeat : Timestamp} {stored : PresenceStatus}
    {timeout : Nat} (online : effectiveStatus now stored lastHeartbeat timeout ≠ .offline) :
    stored ≠ .offline ∧ now - lastHeartbeat ≤ ttlOrElse timeout 60 := by
  unfold effectiveStatus at online
  split at online
  · exact absurd rfl online
  · rename_i within
    exact ⟨online, not_lt.mp within⟩

theorem ttlOrElse_le (timeout : Nat) : ttlOrElse timeout 60 ≤ durationSeconds timeout := by
  unfold ttlOrElse durationFromStd durationSeconds
  split
  · exact le_rfl
  · exact Int.mul_le_mul_of_nonneg_right (by omega) (by decide)

end Network.Presence

end Loontail
