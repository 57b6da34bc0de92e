import Loontail.Network.Schema

/-! # Statements on worlds, the relay and presence -/

/-! ## Hosted worlds -/

namespace Loontail

open Relational

abbrev Executed (Reply : Type) := Except DatabaseError (Reply × Database)

/-- A transaction under way: its name, and its start, which is its `now()`. -/
structure Transaction where
  id : Nat
  startedAt : Timestamp
  deriving DecidableEq, Repr

/-- What the cleanup of a closing transaction has written and holds locked until
the commit: relay sessions, and the presence row of the host if there was one. -/
structure Closing where
  transaction : Transaction
  relays : List Uuid
  present : Bool
  deriving DecidableEq, Repr

namespace Sql

/-- `INSERT … ON CONFLICT (host_user_id) WHERE status = 'open' DO UPDATE`. -/
def upsertWorld (now : Timestamp) (hostUserId : Uuid) (maxPlayers : Int)
    (newId : Uuid) (database : Database) : Executed WorldSession :=
  match database.worldSessions.rows.find? fun world =>
      world.status = .open && world.hostUserId = hostUserId with
  | some existing =>
      .ok ({ existing with maxPlayers, currentPlayers := 0 },
        { database with
          worldSessions := database.worldSessions.update
            (fun world => world.id = existing.id)
            (fun world => { world with maxPlayers, currentPlayers := 0 }) })
  | none =>
      let world : WorldSession := {
        id := newId, hostUserId, status := .open, maxPlayers, currentPlayers := 0,
        invitePolicy := .hostOnly, createdAt := now, closedAt := none }
      match database.worldSessions.insert world with
      | some worldSessions => .ok (world, { database with worldSessions })
      | none => .error .uniqueViolation

def selectWorld (id : Uuid) (database : Database) : Option WorldSession :=
  database.worldSessions.find id

def selectOpenWorld (id : Uuid) (database : Database) : Option WorldSession :=
  (database.worldSessions.find id).filter fun world => world.status = .open

/-- The relay sessions that `close_world_cleanup` finds. -/
def unclosedRelays (worldId : Uuid) (database : Database) : List Uuid :=
  (database.relaySessions.rows.filter fun relay =>
    relay.worldSessionId = worldId && relay.status ≠ RelayStatus.closed).map (·.id)

theorem mem_unclosedRelays {worldId id : Uuid} {database : Database} :
    id ∈ unclosedRelays worldId database ↔ ∃ relay ∈ database.relaySessions.rows,
      (relay.worldSessionId = worldId ∧ relay.status ≠ .closed) ∧ relay.id = id := by
  simp [unclosedRelays, and_assoc]

/-- `close_world_cleanup` as the commit makes it visible. -/
def closeWorldCleanup (closing : Closing) (worldId hostId : Uuid)
    (database : Database) : Executed WorldSession :=
  let now := closing.transaction.startedAt
  let database := { database with
    relaySessions := database.relaySessions.update
      (fun relay => closing.relays.contains relay.id)
      (fun relay => { relay with status := .closed, closedAt := some now }) }
  let database := { database with
    presence := database.presence.update
      (fun presence => presence.userId = hostId && closing.present)
      (fun presence => { presence with
        status := .online, currentWorldSessionId := none, updatedAt := now }) }
  let database := { database with
    worldSessions := database.worldSessions.update
      (fun world => world.id = worldId)
      (fun world => { world with currentPlayers := 0 }) }
  match database.worldSessions.find worldId with
  | some world => .ok (world, database)
  | none => .error .rowNotFound

/-- The transaction of an `update` that does not close the world: one statement,
which writes every merged column. -/
def updateWorld (now : Timestamp) (id : Uuid) (maxPlayers : Int)
    (status : WorldStatus) (invitePolicy : InvitePolicy) (database : Database) :
    Executed WorldSession :=
  match database.worldSessions.claim (fun world => world.id = id)
      (fun world => { world with
        maxPlayers, status, invitePolicy
        closedAt := if status = .closed then some now else none }) with
  | none => .error .uniqueViolation
  | some worldSessions =>
      match worldSessions.find id with
      | none => .error .rowNotFound
      | some updated => .ok (updated, { database with worldSessions })

/-- The active guests that `update` notifies of a new policy. -/
def activeGuests (worldId : Uuid) (database : Database) : List Uuid :=
  (database.relaySessions.rows.filter fun relay =>
    relay.worldSessionId = worldId && relay.status = .active).filterMap (·.guestUserId)

/-- What a closing `update` commits. -/
def commitUpdate (closing : Closing) (id : Uuid) (maxPlayers : Int)
    (invitePolicy : InvitePolicy) (hostId : Uuid) (database : Database) :
    Executed WorldSession :=
  closeWorldCleanup closing id hostId { database with
    worldSessions := database.worldSessions.update
      (fun world => world.id = id)
      (fun world => { world with
        maxPlayers, status := .closed, invitePolicy
        closedAt := some closing.transaction.startedAt }) }

/-- What `close` commits; `shut` says that its first statement found the world open. -/
def commitClose (closing : Closing) (id hostId : Uuid) (shut : Bool)
    (database : Database) : Executed WorldSession :=
  closeWorldCleanup closing id hostId { database with
    worldSessions := database.worldSessions.update
      (fun world => world.id = id && shut)
      (fun world => { world with
        status := .closed, closedAt := some closing.transaction.startedAt }) }

end Sql

/-- The statements of a closing transaction lock the rows they write, which no one
sees before the commit: `lockWorld` and `lockOpenWorld` are the first ones of
`update` and `close`, `lockRelays` and `lockPresence` those of their cleanup. -/
inductive WorldStatement where
  | upsert (hostUserId : Uuid) (maxPlayers : Int) (newId : Uuid)
  | select (id : Uuid)
  | selectOpen (id : Uuid)
  | selectHost (id : Uuid)
  | update (id : Uuid) (maxPlayers : Int) (status : WorldStatus)
      (invitePolicy : InvitePolicy)
  | activeGuests (worldId : Uuid)
  | lockWorld (transaction : Transaction) (id : Uuid)
  | lockOpenWorld (transaction : Transaction) (id : Uuid)
  | lockRelays (transaction : Transaction) (worldId : Uuid)
  | lockPresence (transaction : Transaction) (userId : Uuid)
  | commitUpdate (closing : Closing) (id : Uuid) (maxPlayers : Int)
      (invitePolicy : InvitePolicy) (hostId : Uuid)
  | commitClose (closing : Closing) (id hostId : Uuid) (shut : Bool)
  deriving DecidableEq, Repr

namespace WorldStatement

@[reducible] def Reply : WorldStatement → Type
  | upsert .. => WorldSession
  | select _ => Option WorldSession
  | selectOpen _ => Option WorldSession
  | selectHost _ => Option Uuid
  | update .. => WorldSession
  | activeGuests _ => List Uuid
  | lockWorld .. => Bool
  | lockOpenWorld .. => Bool
  | lockRelays .. => List Uuid
  | lockPresence .. => Bool
  | commitUpdate .. => WorldSession
  | commitClose .. => WorldSession

def execute (now : Timestamp) (database : Database) :
    (statement : WorldStatement) → Executed statement.Reply
  | upsert hostUserId maxPlayers newId =>
      Sql.upsertWorld now hostUserId maxPlayers newId database
  | select id => .ok (Sql.selectWorld id database, database)
  | selectOpen id => .ok (Sql.selectOpenWorld id database, database)
  | selectHost id =>
      .ok ((Sql.selectWorld id database).map (·.hostUserId), database)
  | update id maxPlayers status invitePolicy =>
      Sql.updateWorld now id maxPlayers status invitePolicy database
  | activeGuests worldId => .ok (Sql.activeGuests worldId database, database)
  | lockWorld _ id => .ok ((Sql.selectWorld id database).isSome, database)
  | lockOpenWorld _ id => .ok ((Sql.selectOpenWorld id database).isSome, database)
  | lockRelays _ worldId => .ok (Sql.unclosedRelays worldId database, database)
  | lockPresence _ userId => .ok ((database.presence.find userId).isSome, database)
  | commitUpdate closing id maxPlayers invitePolicy hostId =>
      Sql.commitUpdate closing id maxPlayers invitePolicy hostId database
  | commitClose closing id hostId shut => Sql.commitClose closing id hostId shut database

end WorldStatement

/-! ## The relay handshake and the relay handler -/

namespace Sql

/-- `user_from_token`: a live session of an unblocked user. -/
def userFromToken (now : Timestamp) (tokenHash : String) (database : Database) :
    Option User :=
  match database.sessions.find tokenHash with
  | some session =>
      if session.revokedAt = none ∧ now < session.expiresAt then
        (database.users.find session.userId).filter fun user => !user.blocked
      else none
  | none => none

/-- The `SELECT EXISTS` of `validate_guest_ticket`. A comparison with a null
guest is not true. -/
def ticketValid (now : Timestamp) (ticketId : Uuid) (tokenHash : String)
    (guestUserId : Option Uuid) (database : Database) : Bool :=
  database.joinTickets.rows.any fun ticket =>
    ticket.id = ticketId && ticket.tokenHash = tokenHash &&
      some ticket.userId = guestUserId && ticket.consumedAt = none &&
      now < ticket.expiresAt

def consumeTicket (now : Timestamp) (ticketId : Uuid) (database : Database) :
    Nat × Database :=
  let selected := fun ticket : JoinTicket =>
    ticket.id = ticketId && ticket.consumedAt = none
  (database.joinTickets.affected selected,
    { database with
      joinTickets := database.joinTickets.update selected
        (fun ticket => { ticket with consumedAt := some now })
        consumed_key consumed_slot })

/-- `try_admit_player`: one conditional update. -/
def admitPlayer (worldId : Uuid) (database : Database) : Nat × Database :=
  let selected := fun world : WorldSession =>
    world.id = worldId && world.status = .open && world.currentPlayers < world.maxPlayers
  (database.worldSessions.affected selected,
    { database with
      worldSessions := database.worldSessions.update selected
        (fun world => { world with currentPlayers := world.currentPlayers + 1 }) })

def releasePlayer (worldId : Uuid) (database : Database) : Nat × Database :=
  let selected := fun world : WorldSession => world.id = worldId
  (database.worldSessions.affected selected,
    { database with
      worldSessions := database.worldSessions.update selected
        (fun world => { world with currentPlayers := max (world.currentPlayers - 1) 0 }) })

def markRelayActive (id : Uuid) (database : Database) : Nat × Database :=
  let selected := fun relay : RelaySession =>
    relay.id = id && relay.status ≠ RelayStatus.closed
  (database.relaySessions.affected selected,
    { database with
      relaySessions := database.relaySessions.update selected
        (fun relay => { relay with status := .active }) })

def markRelayClosed (now : Timestamp) (id : Uuid) (database : Database) :
    Nat × Database :=
  let selected := fun relay : RelaySession => relay.id = id
  (database.relaySessions.affected selected,
    { database with
      relaySessions := database.relaySessions.update selected
        (fun relay => { relay with status := .closed, closedAt := some now }) })

end Sql

inductive RelayStatement where
  | userFromToken (tokenHash : String)
  | select (id : Uuid)
  | ticketValid (ticketId : Uuid) (tokenHash : String) (guestUserId : Option Uuid)
  | consumeTicket (ticketId : Uuid)
  | admitPlayer (worldId : Uuid)
  | releasePlayer (worldId : Uuid)
  | markActive (id : Uuid)
  | markClosed (id : Uuid)
  deriving DecidableEq, Repr

namespace RelayStatement

@[reducible] def Reply : RelayStatement → Type
  | userFromToken _ => Option User
  | select _ => Option RelaySession
  | ticketValid .. => Bool
  | consumeTicket _ => Nat
  | admitPlayer _ => Nat
  | releasePlayer _ => Nat
  | markActive _ => Nat
  | markClosed _ => Nat

def execute (now : Timestamp) (database : Database) :
    (statement : RelayStatement) → Executed statement.Reply
  | userFromToken tokenHash =>
      .ok (Sql.userFromToken now tokenHash database, database)
  | select id => .ok (database.relaySessions.find id, database)
  | ticketValid ticketId tokenHash guestUserId =>
      .ok (Sql.ticketValid now ticketId tokenHash guestUserId database, database)
  | consumeTicket ticketId => .ok (Sql.consumeTicket now ticketId database)
  | admitPlayer worldId => .ok (Sql.admitPlayer worldId database)
  | releasePlayer worldId => .ok (Sql.releasePlayer worldId database)
  | markActive id => .ok (Sql.markRelayActive id database)
  | markClosed id => .ok (Sql.markRelayClosed now id database)

end RelayStatement

/-! ## Presence -/

namespace Sql

/-- `INSERT … ON CONFLICT (user_id) DO UPDATE`: revise the user's row, or insert
`row`. -/
def upsertPresence (row : Presence) (set : Presence → Presence)
    (keepsKey : ∀ presence, (set presence).userId = presence.userId)
    (database : Database) : Executed Unit :=
  match database.presence.find row.userId with
  | some _ =>
      .ok ((), { database with
        presence := database.presence.update
          (fun presence => presence.userId = row.userId) set
          (fun presence _ => keepsKey presence) })
  | none =>
      match database.presence.insert row with
      | some presence => .ok ((), { database with presence })
      | none => .error .uniqueViolation

def newPresence (now : Timestamp) (userId : Uuid) (status : PresenceStatus) : Presence where
  userId := userId
  status := status
  lastHeartbeatAt := now
  minecraftVersion := none
  modVersion := none
  loader := none
  currentWorldSessionId := none
  updatedAt := now

/-- The upsert that `heartbeat` and `mark_online` share: an offline row comes
online, other statuses stay. -/
def refreshPresence (now : Timestamp) (userId : Uuid) (database : Database) :
    Executed Unit :=
  upsertPresence (newPresence now userId .online)
    (fun presence => { presence with
      lastHeartbeatAt := now
      status := if presence.status = .offline then .online else presence.status
      updatedAt := now })
    (fun _ => rfl) database

def markOffline (now : Timestamp) (userId : Uuid) (database : Database) :
    Nat × Database :=
  let selected := fun presence : Presence => presence.userId = userId
  (database.presence.affected selected,
    { database with
      presence := database.presence.update selected
        (fun presence => { presence with
          status := .offline, currentWorldSessionId := none, updatedAt := now }) })

def ownsOpenWorld (worldId userId : Uuid) (database : Database) : Bool :=
  database.worldSessions.rows.any fun world =>
    world.id = worldId && world.hostUserId = userId && world.status = .open

def setPresence (now : Timestamp) (userId : Uuid) (status : PresenceStatus)
    (worldId : Option Uuid) (database : Database) : Executed Unit :=
  upsertPresence { newPresence now userId status with currentWorldSessionId := worldId }
    (fun presence => { presence with
      status, lastHeartbeatAt := now, currentWorldSessionId := worldId, updatedAt := now })
    (fun _ => rfl) database

/-- The presence upsert of `bootstrap`. -/
def bootstrapPresence (now : Timestamp) (userId : Uuid)
    (minecraftVersion modVersion loader : Option String) (database : Database) :
    Executed Unit :=
  upsertPresence
    { newPresence now userId .online with minecraftVersion, modVersion, loader }
    (fun presence => { presence with
      status := .online
      lastHeartbeatAt := now
      minecraftVersion := minecraftVersion.or presence.minecraftVersion
      modVersion := modVersion.or presence.modVersion
      loader := loader.or presence.loader
      updatedAt := now })
    (fun _ => rfl) database

/-- The user update of `bootstrap`: the Minecraft identity is filled only when
it is unset. -/
def bootstrapUser (now : Timestamp) (userId : Uuid) (minecraftUuid : String)
    (accountType xuid clientId : Option String) (database : Database) :
    Executed User :=
  match database.users.claim (fun user => user.id = userId)
      (fun user => { user with
        minecraftUuid := user.minecraftUuid.or
          (if minecraftUuid = "" then none else some minecraftUuid)
        accountType := accountType.or user.accountType
        xuid := xuid.or user.xuid
        clientId := clientId.or user.clientId
        lastSeenAt := now
        updatedAt := now }) with
  | none => .error .uniqueViolation
  | some users =>
      match users.find userId with
      | some user => .ok (user, { database with users })
      | none => .error .rowNotFound

end Sql

inductive PresenceStatement where
  | select (userId : Uuid)
  | heartbeat (userId : Uuid)
  | markOnline (userId : Uuid)
  | markOffline (userId : Uuid)
  | ownsOpenWorld (worldId userId : Uuid)
  | setStatus (userId : Uuid) (status : PresenceStatus) (worldId : Option Uuid)
  | bootstrapUser (userId : Uuid) (minecraftUuid : String)
      (accountType xuid clientId : Option String)
  | bootstrap (userId : Uuid) (minecraftVersion modVersion loader : Option String)
  deriving DecidableEq, Repr

namespace PresenceStatement

@[reducible] def Reply : PresenceStatement → Type
  | select _ => Option Presence
  | heartbeat _ => Unit
  | markOnline _ => Unit
  | markOffline _ => Nat
  | ownsOpenWorld .. => Bool
  | setStatus .. => Unit
  | bootstrapUser .. => User
  | bootstrap .. => Unit

def execute (now : Timestamp) (database : Database) :
    (statement : PresenceStatement) → Executed statement.Reply
  | select userId => .ok (database.presence.find userId, database)
  | heartbeat userId => Sql.refreshPresence now userId database
  | markOnline userId => Sql.refreshPresence now userId database
  | markOffline userId => .ok (Sql.markOffline now userId database)
  | ownsOpenWorld worldId userId =>
      .ok (Sql.ownsOpenWorld worldId userId database, database)
  | setStatus userId status worldId => Sql.setPresence now userId status worldId database
  | bootstrapUser userId minecraftUuid accountType xuid clientId =>
      Sql.bootstrapUser now userId minecraftUuid accountType xuid clientId database
  | bootstrap userId minecraftVersion modVersion loader =>
      Sql.bootstrapPresence now userId minecraftVersion modVersion loader database

end PresenceStatement

end Loontail
