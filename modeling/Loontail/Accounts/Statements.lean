import Loontail.Network.Schema
import Loontail.Network.Statements.Worlds

/-! # The tables of the account domain and the statements on them

A statement runs alone and commits. A reply may name the unique index that refused the
row, where the handlers tell the indexes apart. -/

/-! ## Tables

Users with the columns by which they are recognised, the two families of
credentials, and the two tables behind a guest's relay ticket. Of the unique
indexes on users the table carries the one on the normalized name; the others
are over columns that may be null and are checked by the statements. -/

namespace Loontail.Accounts

open Relational

structure User where
  id : Uuid
  minecraftUuid : Option String
  username : String
  normalizedUsername : String
  email : Option String
  passwordHash : Option String
  profileUuid : Option String
  confirmed : Bool
  blocked : Bool
  isAdmin : Bool
  deriving DecidableEq, Repr

/-- `is_admin AND NOT blocked`, as the guard of the last administrator counts. -/
def User.usableAdmin (user : User) : Bool := user.isAdmin && !user.blocked

def User.canLogIn (user : User) : Bool :=
  !user.blocked && user.confirmed && user.passwordHash.isSome

@[reducible] def userLayout : Layout User Uuid String where
  key := User.id
  slot := fun user => some user.normalizedUsername

/-- The unique indexes on users, in the order in which they are checked. -/
inductive UniqueIndex where
  | minecraftUuid
  | profileUuid
  | normalizedUsername
  | email
  deriving DecidableEq, Repr

/-- The row's entry in the index; `lower` is the database's. -/
def User.entry (lower : String → String) (user : User) : UniqueIndex → Option String
  | .minecraftUuid => user.minecraftUuid
  | .profileUuid => user.profileUuid
  | .normalizedUsername => some user.normalizedUsername
  | .email => user.email.map lower

structure YggdrasilToken where
  userId : Uuid
  accessTokenHash : String
  clientToken : String
  issuedAt : Timestamp
  expiresAt : Timestamp
  deriving DecidableEq, Repr

@[reducible] def yggdrasilTokenLayout : Layout YggdrasilToken String Empty where
  key := YggdrasilToken.accessTokenHash
  slot := fun _ => none

/-- `lower` is the case folding of the database's locale. -/
structure Database where
  users : Table userLayout
  sessions : Table sessionLayout
  yggdrasilTokens : Table yggdrasilTokenLayout
  joinTickets : Table joinTicketLayout
  relaySessions : Table relaySessionLayout
  lower : String → String

def Database.empty (lower : String → String) : Database where
  users := .empty
  sessions := .empty
  yggdrasilTokens := .empty
  joinTickets := .empty
  relaySessions := .empty
  lower := lower

abbrev Executed (Reply : Type) := Except DatabaseError (Reply × Database)

namespace Sql

/-! ## Sessions -/

def liveSession (now : Timestamp) (session : Session) : Bool :=
  session.revokedAt = none && now < session.expiresAt

/-- `user_from_token`: a live session of an unblocked user. -/
def userFromToken (now : Timestamp) (tokenHash : String) (database : Database) :
    Option User :=
  match (database.sessions.find tokenHash).filter (liveSession now) with
  | some session => (database.users.find session.userId).filter fun user => !user.blocked
  | none => none

def insertSession (userId : Uuid) (tokenHash : String) (expiresAt : Timestamp)
    (database : Database) : Executed Unit :=
  if (database.users.find userId).isSome then
    match database.sessions.insert ⟨tokenHash, userId, expiresAt, none⟩ with
    | some sessions => .ok ((), { database with sessions })
    | none => .error .uniqueViolation
  else .error .foreignKeyViolation

def revokeSessions (now : Timestamp) (selected : Session → Bool) (database : Database) :
    Nat × Database :=
  let unrevoked := fun session : Session => selected session && session.revokedAt = none
  (database.sessions.affected unrevoked,
    { database with
      sessions := database.sessions.update unrevoked
        (fun session => { session with revokedAt := some now }) })

def cleanupSessions (now : Timestamp) (database : Database) : Nat × Database :=
  let stale := fun session : Session => session.expiresAt ≤ now || session.revokedAt ≠ none
  (database.sessions.affected stale,
    { database with sessions := database.sessions.delete stale })

/-! ## Yggdrasil tokens -/

/-- The pair under the hash, unless it has expired. -/
def selectToken (now : Timestamp) (accessTokenHash : String) (database : Database) :
    Option (Uuid × String) :=
  ((database.yggdrasilTokens.find accessTokenHash).filter fun token => now < token.expiresAt).map
    fun token => (token.userId, token.clientToken)

def insertToken (now : Timestamp) (userId : Uuid) (accessTokenHash clientToken : String)
    (expiresAt : Timestamp) (database : Database) : Executed Unit :=
  if (database.users.find userId).isSome then
    match database.yggdrasilTokens.insert
        ⟨userId, accessTokenHash, clientToken, now, expiresAt⟩ with
    | some yggdrasilTokens => .ok ((), { database with yggdrasilTokens })
    | none => .error .uniqueViolation
  else .error .foreignKeyViolation

/-- `ORDER BY issued_at DESC`; pairs issued at one time are ordered by their hash. -/
def newer (left right : YggdrasilToken) : Bool :=
  right.issuedAt < left.issuedAt ||
    (left.issuedAt = right.issuedAt && left.accessTokenHash < right.accessTokenHash)

def deleteTokens (selected : YggdrasilToken → Bool) (database : Database) : Nat × Database :=
  (database.yggdrasilTokens.affected selected,
    { database with yggdrasilTokens := database.yggdrasilTokens.delete selected })

/-- The user's pairs beyond the newest `maxPerUser`. -/
def beyondCap (userId : Uuid) (maxPerUser : Int) (database : Database)
    (token : YggdrasilToken) : Bool :=
  token.userId = userId &&
    maxPerUser ≤ database.yggdrasilTokens.rows.countP fun other =>
      other.userId = userId && newer other token

/-! ## Users -/

/-- `normalized_username = $1 OR lower(email) = $1 LIMIT 1`. Without an `ORDER BY` any row
that matches may be the one: `choice` is which. -/
def selectByIdentifier (identifier : String) (choice : Nat) (database : Database) :
    Option User :=
  let found := database.users.rows.filter fun user =>
    user.normalizedUsername = identifier || user.email.map database.lower = some identifier
  found[choice % found.length]?

/-- `WHERE minecraft_uuid = $1`, as it is spelled. -/
def selectByMinecraftUuid (minecraftUuid : String) (database : Database) : Option User :=
  database.users.rows.find? fun user => user.minecraftUuid = some minecraftUuid

def selectByProfileUuid (profileUuid : String) (database : Database) : Option User :=
  database.users.rows.find? fun user => user.profileUuid = some profileUuid

def taken (database : Database) (user : User) (index : UniqueIndex) : Bool :=
  (user.entry database.lower index).isSome && database.users.rows.any fun other =>
    other.id ≠ user.id && other.entry database.lower index = user.entry database.lower index

def violated (database : Database) (user : User) : Option UniqueIndex :=
  [UniqueIndex.minecraftUuid, .profileUuid, .normalizedUsername, .email].find?
    (taken database user)

def insertUser (user : User) (database : Database) : Executed (Except UniqueIndex User) :=
  match violated database user with
  | some index => .ok (.error index, database)
  | none =>
      match database.users.insert user with
      | some users => .ok (.ok user, { database with users })
      | none => .error .uniqueViolation

/-- `UPDATE users SET … WHERE id = $1 RETURNING *`. -/
def reviseUser (id : Uuid) (set : User → User) (keepsKey : ∀ user, (set user).id = user.id)
    (database : Database) : Executed (Except UniqueIndex (Option User)) :=
  match database.users.find id with
  | none => .ok (.ok none, database)
  | some user =>
      match violated database (set user) with
      | some index => .ok (.error index, database)
      | none =>
          match database.users.claim (fun row => row.id = id) set
              (fun row _ => keepsKey row) with
          | some users => .ok (.ok (some (set user)), { database with users })
          | none => .error .uniqueViolation

/-- The columns that an administrator's PATCH sets, `none` for those left alone. -/
structure UpdateUser where
  username : Option String
  normalizedUsername : Option String
  email : Option String
  isAdmin : Option Bool
  confirmed : Option Bool
  deriving DecidableEq, Repr

/-- `COALESCE($n, column)`, column by column. -/
def UpdateUser.apply (patch : UpdateUser) (user : User) : User :=
  { user with
    username := patch.username.getD user.username
    normalizedUsername := patch.normalizedUsername.getD user.normalizedUsername
    email := patch.email.orElse fun _ => user.email
    isAdmin := patch.isAdmin.getD user.isAdmin
    confirmed := patch.confirmed.getD user.confirmed }

/-- The columns that a bootstrap refreshes; of the two identifiers one is bound. -/
structure BootstrapRefresh where
  minecraftUuid : Option String
  profileUuid : Option String
  username : String
  normalizedUsername : String
  deriving DecidableEq, Repr

def BootstrapRefresh.apply (refresh : BootstrapRefresh) (user : User) : User :=
  { user with
    minecraftUuid := refresh.minecraftUuid.orElse fun _ => user.minecraftUuid
    profileUuid := refresh.profileUuid.orElse fun _ => user.profileUuid
    username := refresh.username
    normalizedUsername := refresh.normalizedUsername }

def setPassword (id : Uuid) (hash : String) (database : Database) : Nat × Database :=
  let selected := fun user : User => user.id = id
  (database.users.affected selected,
    { database with
      users := database.users.update selected
        (fun user => { user with passwordHash := some hash }) })

def setBlocked (id : Uuid) (blocked : Bool) (database : Database) : Option User × Database :=
  ((database.users.find id).map fun user => { user with blocked },
    { database with
      users := database.users.update (fun user => user.id = id)
        (fun user => { user with blocked }) })

def ticketOf (id : Uuid) (database : Database) (relay : RelaySession) : Bool :=
  relay.joinTicketId.any fun ticketId =>
    (database.joinTickets.find ticketId).any fun ticket => ticket.userId = id

/-- `DELETE FROM users`, with the rows that refer to the user and those that refer to them. -/
def deleteUser (id : Uuid) (database : Database) : Nat × Database :=
  (database.users.affected fun user => user.id = id,
    { database with
      users := database.users.delete fun user => user.id = id
      sessions := database.sessions.delete fun session => session.userId = id
      yggdrasilTokens := database.yggdrasilTokens.delete fun token => token.userId = id
      joinTickets := database.joinTickets.delete fun ticket => ticket.userId = id
      relaySessions := ((database.relaySessions.delete fun relay => relay.hostUserId = id).update
        (fun relay => relay.guestUserId = some id)
        (fun relay => { relay with guestUserId := none })).update
        (ticketOf id database) (fun relay => { relay with joinTicketId := none }) })

/-- The two queries of `guard_last_admin`. -/
def isUsableAdmin (id : Uuid) (database : Database) : Bool :=
  database.users.rows.any fun user => user.id = id && user.usableAdmin

def countUsableAdmins (database : Database) : Nat :=
  database.users.rows.countP User.usableAdmin

/-! ## The guest's ticket -/

def ticketValid (now : Timestamp) (ticketId : Uuid) (tokenHash : String)
    (guestUserId : Option Uuid) (database : Database) : Bool :=
  database.joinTickets.rows.any fun ticket =>
    ticket.id = ticketId && ticket.tokenHash = tokenHash &&
      some ticket.userId = guestUserId && ticket.consumedAt = none &&
      now < ticket.expiresAt

def consumeTicket (now : Timestamp) (ticketId : Uuid) (database : Database) :
    Nat × Database :=
  let selected := fun ticket : JoinTicket =>
    ticket.id = ticketId && ticket.consumedAt = none
  (database.joinTickets.affected selected,
    { database with
      joinTickets := database.joinTickets.update selected
        (fun ticket => { ticket with consumedAt := some now })
        consumed_key consumed_slot })

end Sql

inductive Statement where
  | userFromToken (tokenHash : String)
  | insertSession (userId : Uuid) (tokenHash : String) (expiresAt : Timestamp)
  | revokeSession (tokenHash : String)
  | revokeAllSessions (userId : Uuid)
  | cleanupSessions
  | selectToken (accessTokenHash : String)
  | insertToken (userId : Uuid) (accessTokenHash clientToken : String)
      (expiresAt : Timestamp)
  | evictTokens (userId : Uuid) (maxPerUser : Int)
  | deleteToken (accessTokenHash : String) (clientToken : Option String)
  | deleteAllTokens (userId : Uuid)
  | cleanupTokens
  | selectUser (id : Uuid)
  | selectByIdentifier (identifier : String) (choice : Nat)
  | selectByMinecraftUuid (minecraftUuid : String)
  | selectByProfileUuid (profileUuid : String)
  | insertUser (user : User)
  | updateUser (id : Uuid) (patch : Sql.UpdateUser)
  | setProfileUuid (id : Uuid) (profileUuid : String)
  | bindMinecraft (id : Uuid) (minecraftUuid : String)
  | refreshBootstrap (id : Uuid) (refresh : Sql.BootstrapRefresh)
  | setPassword (id : Uuid) (hash : String)
  | setBlocked (id : Uuid) (blocked : Bool)
  | deleteUser (id : Uuid)
  | isUsableAdmin (id : Uuid)
  | countUsableAdmins
  | selectRelay (id : Uuid)
  | ticketValid (ticketId : Uuid) (tokenHash : String) (guestUserId : Option Uuid)
  | consumeTicket (ticketId : Uuid)
  deriving DecidableEq, Repr

namespace Statement

@[reducible] def Reply : Statement → Type
  | userFromToken _ => Option User
  | insertSession .. => Unit
  | revokeSession _ => Nat
  | revokeAllSessions _ => Nat
  | cleanupSessions => Nat
  | selectToken _ => Option (Uuid × String)
  | insertToken .. => Unit
  | evictTokens .. => Nat
  | deleteToken .. => Nat
  | deleteAllTokens _ => Nat
  | cleanupTokens => Nat
  | selectUser _ => Option User
  | selectByIdentifier .. => Option User
  | selectByMinecraftUuid _ => Option User
  | selectByProfileUuid _ => Option User
  | insertUser _ => Except UniqueIndex User
  | updateUser .. => Except UniqueIndex (Option User)
  | setProfileUuid .. => Except UniqueIndex (Option User)
  | bindMinecraft .. => Except UniqueIndex (Option User)
  | refreshBootstrap .. => Except UniqueIndex (Option User)
  | setPassword .. => Nat
  | setBlocked .. => Option User
  | deleteUser _ => Nat
  | isUsableAdmin _ => Bool
  | countUsableAdmins => Nat
  | selectRelay _ => Option RelaySession
  | ticketValid .. => Bool
  | consumeTicket _ => Nat

def execute (now : Timestamp) (database : Database) :
    (statement : Statement) → Executed statement.Reply
  | userFromToken tokenHash => .ok (Sql.userFromToken now tokenHash database, database)
  | insertSession userId tokenHash expiresAt =>
      Sql.insertSession userId tokenHash expiresAt database
  | revokeSession tokenHash =>
      .ok (Sql.revokeSessions now (fun session => session.tokenHash = tokenHash) database)
  | revokeAllSessions userId =>
      .ok (Sql.revokeSessions now (fun session => session.userId = userId) database)
  | cleanupSessions => .ok (Sql.cleanupSessions now database)
  | selectToken accessTokenHash =>
      .ok (Sql.selectToken now accessTokenHash database, database)
  | insertToken userId accessTokenHash clientToken expiresAt =>
      Sql.insertToken now userId accessTokenHash clientToken expiresAt database
  | evictTokens userId maxPerUser =>
      .ok (Sql.deleteTokens (Sql.beyondCap userId maxPerUser database) database)
  | deleteToken accessTokenHash clientToken =>
      .ok (Sql.deleteTokens (fun token => token.accessTokenHash = accessTokenHash &&
        clientToken.all fun supplied => token.clientToken = supplied) database)
  | deleteAllTokens userId =>
      .ok (Sql.deleteTokens (fun token => token.userId = userId) database)
  | cleanupTokens => .ok (Sql.deleteTokens (fun token => token.expiresAt ≤ now) database)
  | selectUser id => .ok (database.users.find id, database)
  | selectByIdentifier identifier choice =>
      .ok (Sql.selectByIdentifier identifier choice database, database)
  | selectByMinecraftUuid minecraftUuid =>
      .ok (Sql.selectByMinecraftUuid minecraftUuid database, database)
  | selectByProfileUuid profileUuid =>
      .ok (Sql.selectByProfileUuid profileUuid database, database)
  | insertUser user => Sql.insertUser user database
  | updateUser id patch => Sql.reviseUser id patch.apply (fun _ => rfl) database
  | setProfileUuid id profileUuid =>
      Sql.reviseUser id (fun user => { user with profileUuid := some profileUuid })
        (fun _ => rfl) database
  | bindMinecraft id minecraftUuid =>
      Sql.reviseUser id (fun user => { user with
        minecraftUuid := user.minecraftUuid.orElse fun _ =>
          if minecraftUuid = "" then none else some minecraftUuid }) (fun _ => rfl) database
  | refreshBootstrap id refresh => Sql.reviseUser id refresh.apply (fun _ => rfl) database
  | setPassword id hash => .ok (Sql.setPassword id hash database)
  | setBlocked id blocked => .ok (Sql.setBlocked id blocked database)
  | deleteUser id => .ok (Sql.deleteUser id database)
  | isUsableAdmin id => .ok (Sql.isUsableAdmin id database, database)
  | countUsableAdmins => .ok (Sql.countUsableAdmins database, database)
  | selectRelay id => .ok (database.relaySessions.find id, database)
  | ticketValid ticketId tokenHash guestUserId =>
      .ok (Sql.ticketValid now ticketId tokenHash guestUserId database, database)
  | consumeTicket ticketId => .ok (Sql.consumeTicket now ticketId database)

end Statement

end Loontail.Accounts
