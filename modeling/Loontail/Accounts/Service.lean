import Loontail.Accounts.Statements
import Loontail.Concurrency.Fallible

/-! # The state that account handlers share

The database, the join sessions that a game server is about to ask for, and the
clock. The network domain runs beside it on the tables behind a relay ticket;
whatever it leaves there is one operation. -/

namespace Loontail.Accounts

open Concurrency Relational

def joinSessionTtlSeconds : Nat := 30

structure JoinSession where
  userId : Uuid
  ip : Option String
  expiresAt : Timestamp
  deriving DecidableEq, Repr

def JoinSession.isExpired (session : JoinSession) (now : Timestamp) : Bool :=
  session.expiresAt ≤ now

abbrev JoinSessions := List (String × JoinSession)

namespace JoinSessions

def sweep (sessions : JoinSessions) (now : Timestamp) : JoinSessions :=
  sessions.filter fun entry => !entry.2.isExpired now

def without (sessions : JoinSessions) (serverId : String) : JoinSessions :=
  sessions.filter fun entry => entry.1 ≠ serverId

def find (sessions : JoinSessions) (serverId : String) : Option JoinSession :=
  (sessions.find? fun entry => entry.1 = serverId).map (·.2)

/-- `record`, under the lock: sweeps, then replaces the server's entry. -/
def record (sessions : JoinSessions) (now : Timestamp) (serverId : String)
    (session : JoinSession) : JoinSessions :=
  (serverId, session) :: (sessions.sweep now).without serverId

/-- `take`, under the lock: sweeps, then removes the server's entry. -/
def take (sessions : JoinSessions) (now : Timestamp) (serverId : String) :
    Option JoinSession × JoinSessions :=
  let swept := sessions.sweep now
  ((swept.find serverId).filter fun session => !session.isExpired now,
    swept.without serverId)

end JoinSessions

inductive Operation where
  | statement (statement : Statement)
  | now
  | tick (elapsed : Nat)
  | recordJoin (now : Timestamp) (serverId : String) (session : JoinSession)
  | takeJoin (now : Timestamp) (serverId : String)
  | network (joinTickets : Table joinTicketLayout) (relaySessions : Table relaySessionLayout)

@[reducible] def Operation.Result : Operation → Type
  | .statement query => Except DatabaseError query.Reply
  | .now => Timestamp
  | .takeJoin .. => Option JoinSession
  | _ => Unit

/-- Statements can fail for want of a connection, the others cannot. -/
def Operation.fault : (operation : Operation) → Option operation.Result
  | .statement _ => some (.error .connection)
  | _ => none

structure Service where
  database : Database
  joinSessions : JoinSessions
  clock : Timestamp

namespace Service

def boot (database : Database) (clock : Timestamp) : Service where
  database := database
  joinSessions := []
  clock := clock

def perform (service : Service) :
    (operation : Operation) → operation.Result × Service
  | .statement statement =>
      match statement.execute service.clock service.database with
      | .ok (reply, database) => (.ok reply, { service with database })
      | .error error => (.error error, service)
  | .now => (service.clock, service)
  | .tick elapsed => ((), { service with clock := service.clock + elapsed })
  | .recordJoin now serverId session =>
      ((), { service with
        joinSessions := service.joinSessions.record now serverId session })
  | .takeJoin now serverId =>
      let (taken, joinSessions) := service.joinSessions.take now serverId
      (taken, { service with joinSessions })
  | .network joinTickets relaySessions =>
      ((), { service with database := { service.database with joinTickets, relaySessions } })

end Service

@[reducible] def accounts : Interface where
  State := Service
  Operation := Operation
  Result := Operation.Result
  ready := fun _ _ => true
  perform := Service.perform
  fault := Operation.fault

/-! ## What an operation can leave -/

section Occurs

variable {before after : Service}

theorem occurs_statement {statement : Statement}
    {result : Except DatabaseError statement.Reply}
    (occurs : accounts.Occurs before (.statement statement) result after) :
    (∃ error, result = .error error ∧ after = before) ∨
    ∃ reply database, result = .ok reply ∧
      statement.execute before.clock before.database = .ok (reply, database) ∧
      after = { before with database } := by
  rcases occurs with ⟨-, performed⟩ | ⟨fault, rfl⟩
  · change (match statement.execute before.clock before.database with
      | .ok (reply, database) => (Except.ok reply, { before with database })
      | .error error => (Except.error error, before)) = (result, after) at performed
    split at performed
    · rename_i reply database executed
      cases performed
      exact .inr ⟨reply, database, rfl, executed, rfl⟩
    · rename_i error executed
      cases performed
      exact .inl ⟨error, rfl, rfl⟩
  · exact .inl ⟨.connection, (Option.some.inj fault).symm, rfl⟩

theorem occurs_ok {statement : Statement} {reply : statement.Reply}
    (occurs : accounts.Occurs before (.statement statement) (.ok reply) after) :
    ∃ database, statement.execute before.clock before.database = .ok (reply, database) ∧
      after = { before with database } := by
  rcases occurs_statement occurs with ⟨error, failed, -⟩ | ⟨_, database, same, executed, left⟩
  · cases failed
  · cases same
    exact ⟨database, executed, left⟩

/-- Beside statements only the network domain writes the database, and of it only
the tables behind relay tickets. -/
theorem occurs_database {operation : Operation} {result : operation.Result}
    (other : ∀ statement, operation ≠ .statement statement)
    (occurs : accounts.Occurs before operation result after) :
    ∃ joinTickets relaySessions,
      after.database = { before.database with joinTickets, relaySessions } := by
  rcases occurs with ⟨-, performed⟩ | ⟨-, rfl⟩
  · have left : after = (before.perform operation).2 := by
      rw [show before.perform operation = _ from performed]
    rw [left]
    cases operation with
    | statement statement => exact (other statement rfl).elim
    | network joinTickets relaySessions => exact ⟨joinTickets, relaySessions, rfl⟩
    | _ => exact ⟨before.database.joinTickets, before.database.relaySessions, rfl⟩
  · exact ⟨after.database.joinTickets, after.database.relaySessions, rfl⟩

end Occurs

end Loontail.Accounts
