import Loontail.Concurrency.Process
import Loontail.Core.Realtime
import Loontail.Network.Statements.Admission
import Loontail.Network.Statements.Worlds

/-! # The state that request handlers share

The database with its row locks, the realtime hubs and the clock, and every
atomic operation that a handler takes on them. A transaction of one statement is one
operation. The accepting and the closing transactions, which hold row locks across
several statements, are taken apart; what they write is visible from their commit. -/

namespace Loontail

open Concurrency Relational

inductive LockedRow where
  | friendRequest (id : Uuid)
  | joinRequest (id : Uuid)
  | worldInvite (id : Uuid)
  | worldSession (id : Uuid)
  | relaySession (id : Uuid)
  | presence (userId : Uuid)
  deriving DecidableEq, Repr

/-- A row lock held from `SELECT … FOR UPDATE` or an `UPDATE` to the end of its
transaction. -/
structure RowLock where
  row : LockedRow
  owner : Nat
  deriving DecidableEq, Repr

/-! ## Statements -/

inductive Statement where
  | world (statement : WorldStatement)
  | relay (statement : RelayStatement)
  | friend (statement : FriendStatement)
  | presence (statement : PresenceStatement)
  | join (statement : JoinStatement)
  | invite (statement : InviteStatement)
  | maintenance (statement : MaintenanceStatement)
  deriving DecidableEq, Repr

namespace Statement

@[reducible] def Reply : Statement → Type
  | world statement => statement.Reply
  | relay statement => statement.Reply
  | friend statement => statement.Reply
  | presence statement => statement.Reply
  | join statement => statement.Reply
  | invite statement => statement.Reply
  | maintenance statement => statement.Reply

def execute (now : Timestamp) (database : Database) :
    (statement : Statement) → Executed statement.Reply
  | world statement => statement.execute now database
  | relay statement => statement.execute now database
  | friend statement => statement.execute now database
  | presence statement => statement.execute now database
  | join statement => statement.execute now database
  | invite statement => statement.execute now database
  | maintenance statement => statement.execute now database

def transaction : Statement → Option Transaction
  | friend (.lockRequest transaction _) => some transaction
  | friend (.commitAccept transaction ..) => some transaction
  | join (.lock transaction _) => some transaction
  | join (.commitAccept transaction ..) => some transaction
  | invite (.lock transaction _) => some transaction
  | invite (.commitAccept transaction ..) => some transaction
  | world (.lockWorld transaction _) => some transaction
  | world (.lockOpenWorld transaction _) => some transaction
  | world (.lockRelays transaction _) => some transaction
  | world (.lockPresence transaction _) => some transaction
  | world (.commitUpdate closing ..) => some closing.transaction
  | world (.commitClose closing ..) => some closing.transaction
  | _ => none

/-- The rows that a `SELECT … FOR UPDATE` locks or an `UPDATE` selects, whether or
not it changes them. -/
def locking (database : Database) : Statement → List LockedRow
  | friend (.lockRequest _ id) => [.friendRequest id]
  | join (.lock _ id) => [.joinRequest id]
  | invite (.lock _ id) => [.worldInvite id]
  | world (.upsert hostUserId _ _) =>
      (database.worldSessions.rows.filter fun world =>
        world.status = .open && world.hostUserId = hostUserId).map (.worldSession ·.id)
  | world (.update id ..) => [.worldSession id]
  | world (.lockWorld _ id) => [.worldSession id]
  | world (.lockOpenWorld _ id) =>
      ((Sql.selectOpenWorld id database).map (.worldSession ·.id)).toList
  | world (.lockRelays _ worldId) =>
      (Sql.unclosedRelays worldId database).map .relaySession
  | world (.lockPresence _ userId) => [.presence userId]
  | world (.commitUpdate _ id ..) => [.worldSession id]
  | world (.commitClose _ id ..) => [.worldSession id]
  | relay (.releasePlayer worldId) => [.worldSession worldId]
  | relay (.markActive id) => [.relaySession id]
  | relay (.markClosed id) => [.relaySession id]
  | presence (.heartbeat userId) => [.presence userId]
  | presence (.markOnline userId) => [.presence userId]
  | presence (.markOffline userId) => [.presence userId]
  | presence (.setStatus userId ..) => [.presence userId]
  | presence (.bootstrap userId ..) => [.presence userId]
  | _ => []

def writes (now : Timestamp) (database : Database) (statement : Statement)
    (row : LockedRow) : Bool :=
  match statement.execute now database with
  | .error _ => false
  | .ok (_, after) =>
      match row with
      | .friendRequest id => database.friendRequests.find id ≠ after.friendRequests.find id
      | .joinRequest id => database.joinRequests.find id ≠ after.joinRequests.find id
      | .worldInvite id => database.worldInvites.find id ≠ after.worldInvites.find id
      | .worldSession id => database.worldSessions.find id ≠ after.worldSessions.find id
      | .relaySession id => database.relaySessions.find id ≠ after.relaySessions.find id
      | .presence userId => database.presence.find userId ≠ after.presence.find userId

/-- A lock of another transaction on a row that the statement locks or writes
makes it wait. -/
def waitsFor (now : Timestamp) (database : Database) (statement : Statement)
    (lock : RowLock) : Bool :=
  statement.transaction.map (·.id) ≠ some lock.owner &&
    ((statement.locking database).contains lock.row ||
      statement.writes now database lock.row)

/-- The locks after a statement: a statement that locks takes the rows it found, a
commit releases everything its transaction holds. -/
def locksAfter (locks : List RowLock) :
    (statement : Statement) → statement.Reply → List RowLock
  | friend (.lockRequest transaction id), some _ =>
      ⟨.friendRequest id, transaction.id⟩ :: locks
  | join (.lock transaction id), some _ => ⟨.joinRequest id, transaction.id⟩ :: locks
  | invite (.lock transaction id), some _ => ⟨.worldInvite id, transaction.id⟩ :: locks
  | friend (.commitAccept transaction ..), _ =>
      locks.filter (·.owner ≠ transaction.id)
  | join (.commitAccept transaction ..), some _ =>
      locks.filter (·.owner ≠ transaction.id)
  | invite (.commitAccept transaction ..), some _ =>
      locks.filter (·.owner ≠ transaction.id)
  | world (.lockWorld transaction id), true => ⟨.worldSession id, transaction.id⟩ :: locks
  | world (.lockOpenWorld transaction id), true =>
      ⟨.worldSession id, transaction.id⟩ :: locks
  | world (.lockRelays transaction _), relays =>
      relays.map (⟨.relaySession ·, transaction.id⟩) ++ locks
  | world (.lockPresence transaction userId), true =>
      ⟨.presence userId, transaction.id⟩ :: locks
  | world (.commitUpdate closing ..), _ => locks.filter (·.owner ≠ closing.transaction.id)
  | world (.commitClose closing ..), _ => locks.filter (·.owner ≠ closing.transaction.id)
  | _, _ => locks

end Statement

/-! ## Operations -/

/-- `serve` is the event loop of a signaling connection; it returns when the
connection is gone. -/
inductive SignalingOperation where
  | add (userId connId : Uuid)
  | remove (userId connId : Uuid)
  | isOnline (userId : Uuid)
  | sendTo (userId : Uuid) (event : ServerEvent)
  | serve (userId connId : Uuid)
  | dropReceiver (connId : Uuid)
  deriving DecidableEq, Repr

@[reducible] def SignalingOperation.Result : SignalingOperation → Type
  | isOnline _ => Bool
  | _ => Unit

/-- `upgrade` yields the socket of a new connection; `awaitPeer` returns when the
channel is signalled or the rendezvous timeout has passed, and says which; `pipe`
starts the tunnel, which lasts until the process moves on. -/
inductive RelayOperation where
  | upgrade
  | take (relaySessionId : Uuid) (role : RelayRole)
  | park (relaySessionId : Uuid) (role : RelayRole) (peer : PendingPeer)
  | awaitPeer (done : SocketId)
  | removeWaiting (relaySessionId : Uuid)
  | signalDone (done : SocketId)
  | incrActive
  | decrActive
  | pipe (relaySessionId : Uuid) (peer socket : SocketId)
  deriving DecidableEq, Repr

@[reducible] def RelayOperation.Result : RelayOperation → Type
  | upgrade => SocketId
  | take .. => Option PendingPeer
  | park .. => Option PendingPeer
  | awaitPeer _ => Bool
  | removeWaiting _ => Option PendingPeer
  | _ => Unit

inductive Operation where
  | statement (statement : Statement)
  | begin
  | rollback (transaction : Transaction)
  | now
  | tick (elapsed : Nat)
  | signaling (operation : SignalingOperation)
  | relay (operation : RelayOperation)
  deriving DecidableEq, Repr

@[reducible] def Operation.Result : Operation → Type
  | .statement query => Except DatabaseError query.Reply
  | .begin => Except DatabaseError Transaction
  | .rollback _ => Unit
  | .now => Timestamp
  | .tick _ => Unit
  | .signaling operation => operation.Result
  | .relay operation => operation.Result

/-- Database operations can fail for want of a connection, the others cannot. -/
def Operation.fault : (operation : Operation) → Option operation.Result
  | .statement _ => some (.error .connection)
  | .begin => some (.error .connection)
  | _ => none

/-- The operations that belong to one kind of request only; the others are
`ordinary`. -/
inductive Purpose where
  | ordinary
  | transaction
  | createWorld
  | updateWorld
  | closeWorld
  | joinTicket
  | joinRequest
  | acceptJoinRequest
  | invite
  | acceptInvite
  | approveInvite
  | friendRequest
  | removeFriend
  | setStatus
  | signaling
  | relay
  | cleanup
  | restart
  | tick
  deriving DecidableEq, Repr

def Operation.purpose : Operation → Purpose
  | .statement (.world (.upsert ..)) => .createWorld
  | .statement (.world (.update ..)) => .updateWorld
  | .statement (.world (.commitUpdate ..)) => .updateWorld
  | .statement (.world (.commitClose ..)) => .closeWorld
  | .statement (.world (.lockWorld ..)) => .transaction
  | .statement (.world (.lockOpenWorld ..)) => .transaction
  | .statement (.world (.lockRelays ..)) => .transaction
  | .statement (.world (.lockPresence ..)) => .transaction
  | .statement (.join (.issueTicket ..)) => .joinTicket
  | .statement (.join (.insert ..)) => .joinRequest
  | .statement (.join (.lock ..)) => .transaction
  | .statement (.join (.commitAccept ..)) => .acceptJoinRequest
  | .statement (.invite (.insert ..)) => .invite
  | .statement (.invite (.lock ..)) => .transaction
  | .statement (.invite (.commitAccept ..)) => .acceptInvite
  | .statement (.invite (.approve _)) => .approveInvite
  | .statement (.friend (.insertRequest ..)) => .friendRequest
  | .statement (.friend (.lockRequest ..)) => .friendRequest
  | .statement (.friend (.commitAccept ..)) => .friendRequest
  | .statement (.friend (.decline _)) => .friendRequest
  | .statement (.friend (.remove ..)) => .removeFriend
  | .statement (.presence (.setStatus ..)) => .setStatus
  | .statement (.presence (.markOnline _)) => .signaling
  | .statement (.presence (.markOffline _)) => .signaling
  | .statement (.relay (.userFromToken _)) => .ordinary
  | .statement (.relay _) => .relay
  | .statement (.maintenance .closeRelaySessions) => .restart
  | .statement (.maintenance .resetPlayers) => .restart
  | .statement (.maintenance _) => .cleanup
  | .signaling (.sendTo ..) => .ordinary
  | .signaling _ => .signaling
  | .relay _ => .relay
  | .tick _ => .tick
  | .begin => .transaction
  | .rollback _ => .transaction
  | _ => .ordinary

/-- Requests of these purposes hold row locks in a transaction of their own. -/
def Purpose.locks : Purpose → Bool
  | updateWorld => true
  | closeWorld => true
  | acceptJoinRequest => true
  | acceptInvite => true
  | friendRequest => true
  | _ => false

/-! ## The service -/

/-- `transactions` and `sockets` count those begun so far, `signalled` lists the
`done` channels on which an end was reported. -/
structure Service where
  database : Database
  realtime : Realtime
  clock : Timestamp
  locks : List RowLock
  transactions : Nat
  sockets : Nat
  signalled : List SocketId

namespace Service

def boot (database : Database) (clock : Timestamp) : Service where
  database := database
  realtime := .new
  clock := clock
  locks := []
  transactions := 0
  sockets := 0
  signalled := []

def ready (service : Service) : Operation → Bool
  | .statement statement => service.locks.all fun lock =>
      !statement.waitsFor service.clock service.database lock
  | _ => true

def withSignaling (service : Service) (signaling : SignalingHub) : Service :=
  { service with realtime := { service.realtime with signaling } }

def withRelay (service : Service) (relay : RelayHub) : Service :=
  { service with realtime := { service.realtime with relay } }

def performSignaling (service : Service) :
    (operation : SignalingOperation) → operation.Result × Service
  | .add userId connId =>
      ((), service.withSignaling (service.realtime.signaling.add userId connId))
  | .remove userId connId =>
      ((), service.withSignaling (service.realtime.signaling.remove userId connId))
  | .isOnline userId => (service.realtime.signaling.isOnline userId, service)
  | .sendTo userId event =>
      ((), service.withSignaling (service.realtime.signaling.sendTo userId event))
  | .serve _ _ => ((), service)
  | .dropReceiver connId =>
      ((), service.withSignaling (service.realtime.signaling.dropReceiver connId))

def performRelay (service : Service) :
    (operation : RelayOperation) → operation.Result × Service
  | .upgrade => (service.sockets, { service with sockets := service.sockets + 1 })
  | .take relaySessionId role =>
      let (peer, relay) := service.realtime.relay.take relaySessionId role
      (peer, service.withRelay relay)
  | .park relaySessionId role peer =>
      let (refused, relay) := service.realtime.relay.park relaySessionId role peer
      (refused, service.withRelay relay)
  | .awaitPeer done => (service.signalled.contains done, service)
  | .removeWaiting relaySessionId =>
      let (peer, relay) := service.realtime.relay.removeWaiting relaySessionId
      (peer, service.withRelay relay)
  | .signalDone done => ((), { service with signalled := done :: service.signalled })
  | .incrActive => ((), service.withRelay service.realtime.relay.incrActive)
  | .decrActive => ((), service.withRelay service.realtime.relay.decrActive)
  | .pipe .. => ((), service)

def perform (service : Service) :
    (operation : Operation) → operation.Result × Service
  | .statement statement =>
      match statement.execute service.clock service.database with
      | .ok (reply, database) =>
          (.ok reply, { service with
            database, locks := statement.locksAfter service.locks reply })
      | .error error => (.error error, service)
  | .begin =>
      (.ok ⟨service.transactions, service.clock⟩,
        { service with transactions := service.transactions + 1 })
  | .rollback transaction =>
      ((), { service with locks := service.locks.filter (·.owner ≠ transaction.id) })
  | .now => (service.clock, service)
  | .tick elapsed => ((), { service with clock := service.clock + elapsed })
  | .signaling operation => service.performSignaling operation
  | .relay operation => service.performRelay operation

end Service

@[reducible] def network : Interface where
  State := Service
  Operation := Operation
  Result := Operation.Result
  ready := Service.ready
  perform := Service.perform
  fault := Operation.fault

/-! ## What an operation can leave

Everything a statement can do to the service is in its execution. -/

theorem occurs_statement {before after : Service} {statement : Statement}
    {result : Except DatabaseError statement.Reply}
    (occurs : network.Occurs before (.statement statement) result after) :
    (∃ error, result = .error error ∧ after = before) ∨
    ∃ reply database, result = .ok reply ∧
      statement.execute before.clock before.database = .ok (reply, database) ∧
      after = { before with
        database, locks := statement.locksAfter before.locks reply } := by
  rcases occurs with ⟨-, performed⟩ | ⟨fault, rfl⟩
  · change (match statement.execute before.clock before.database with
      | .ok (reply, database) => (Except.ok reply, { before with
          database, locks := statement.locksAfter before.locks reply })
      | .error error => (Except.error error, before)) = (result, after) at performed
    split at performed
    · rename_i reply database executed
      cases performed
      exact .inr ⟨reply, database, rfl, executed, rfl⟩
    · rename_i error executed
      cases performed
      exact .inl ⟨error, rfl, rfl⟩
  · exact .inl ⟨.connection, (Option.some.inj fault).symm, rfl⟩

theorem occurs_ok {before after : Service} {statement : Statement}
    {reply : statement.Reply}
    (occurs : network.Occurs before (.statement statement) (.ok reply) after) :
    ∃ database, statement.execute before.clock before.database = .ok (reply, database) ∧
      after = { before with
        database, locks := statement.locksAfter before.locks reply } := by
  rcases occurs_statement occurs with ⟨error, failed, _⟩ | ⟨_, database, same, executed, left⟩
  · cases failed
  · cases same
    exact ⟨database, executed, left⟩

/-- An operation that is no statement leaves the database alone. -/
theorem occurs_database {before after : Service} {operation : Operation}
    {result : operation.Result}
    (other : ∀ statement, operation ≠ .statement statement)
    (occurs : network.Occurs before operation result after) :
    after.database = before.database := by
  rcases occurs with ⟨-, performed⟩ | ⟨-, rfl⟩
  · have left : after = (before.perform operation).2 := by
      rw [show before.perform operation = _ from performed]
    rw [left]
    cases operation with
    | statement statement => exact (other statement rfl).elim
    | signaling operation => cases operation <;> rfl
    | relay operation => cases operation <;> rfl
    | _ => rfl
  · rfl

theorem occurs_relay {before after : Service} {operation : RelayOperation}
    {result : operation.Result}
    (occurs : network.Occurs before (.relay operation) result after) :
    before.performRelay operation = (result, after) := by
  rcases occurs with ⟨-, performed⟩ | ⟨fault, -⟩
  · exact performed
  · cases fault

theorem occurs_take {before after : Service} {id : Uuid} {role : RelayRole}
    {peer : Option PendingPeer}
    (occurs : network.Occurs before (.relay (.take id role)) peer after) :
    before.realtime.relay.take id role = (peer, after.realtime.relay) := by
  have performed := occurs_relay occurs
  cases performed
  rfl

theorem occurs_park {before after : Service} {id : Uuid} {role : RelayRole}
    {peer : PendingPeer} {refused : Option PendingPeer}
    (occurs : network.Occurs before (.relay (.park id role peer)) refused after) :
    before.realtime.relay.park id role peer = (refused, after.realtime.relay) := by
  have performed := occurs_relay occurs
  cases performed
  rfl

theorem occurs_removeWaiting {before after : Service} {id : Uuid}
    {peer : Option PendingPeer}
    (occurs : network.Occurs before (.relay (.removeWaiting id)) peer after) :
    before.realtime.relay.removeWaiting id = (peer, after.realtime.relay) := by
  have performed := occurs_relay occurs
  cases performed
  rfl

theorem occurs_signaling {before after : Service} {operation : SignalingOperation}
    {result : operation.Result}
    (occurs : network.Occurs before (.signaling operation) result after) :
    before.performSignaling operation = (result, after) := by
  rcases occurs with ⟨-, performed⟩ | ⟨fault, -⟩
  · exact performed
  · cases fault

theorem occurs_relay_untouched {before after : Service} {operation : Operation}
    {result : operation.Result} (other : ∀ own, operation ≠ .relay own)
    (occurs : network.Occurs before operation result after) :
    after.realtime.relay = before.realtime.relay ∧ after.sockets = before.sockets ∧
      after.signalled = before.signalled := by
  cases operation with
  | relay own => exact (other own rfl).elim
  | statement statement =>
      rcases occurs_statement occurs with ⟨-, -, rfl⟩ | ⟨_, _, -, -, rfl⟩
      · exact ⟨rfl, rfl, rfl⟩
      · exact ⟨rfl, rfl, rfl⟩
  | signaling own =>
      have left := congrArg Prod.snd (occurs_signaling occurs)
      subst left
      cases own <;> exact ⟨rfl, rfl, rfl⟩
  | _ =>
      rcases occurs with ⟨-, performed⟩ | ⟨-, rfl⟩
      · cases performed
        exact ⟨rfl, rfl, rfl⟩
      · exact ⟨rfl, rfl, rfl⟩

theorem occurs_clock {before after : Service} {operation : Operation}
    {result : operation.Result}
    (occurs : network.Occurs before operation result after) : before.clock ≤ after.clock := by
  cases operation with
  | statement statement =>
      rcases occurs_statement occurs with ⟨-, -, rfl⟩ | ⟨_, _, -, -, rfl⟩
      · exact le_refl _
      · exact le_refl _
  | _ =>
      rcases occurs with ⟨-, performed⟩ | ⟨-, rfl⟩
      · have left := congrArg (fun outcome => outcome.2.clock) performed
        rw [← show _ = after.clock from left]
        first
          | exact le_refl _
          | exact Int.le_add_of_nonneg_right (Int.natCast_nonneg _)
          | (rename_i operation; cases operation <;> exact le_refl _)
      · exact le_refl _

end Loontail
