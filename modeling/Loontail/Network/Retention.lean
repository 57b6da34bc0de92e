import Mathlib.Algebra.Group.Nat.Defs
import Loontail.Network.Statements.Admission
import Loontail.Relational.Discards
import Loontail.Relational.Paging

/-! # The retention of the event log

Events that are older than the retention window are deleted in chunks, each in a statement of
its own. Between two statements other processes record events. -/

namespace Loontail

open Relational

/-- `BIGSERIAL` issues no identifier beyond 2^63 - 1, and none twice. -/
structure UserEvent where
  id : Fin (2 ^ 63)
  createdAt : Timestamp
  deriving DecidableEq

@[reducible] def userEventLayout : Layout UserEvent (Fin (2 ^ 63)) Empty where
  key := UserEvent.id
  slot := fun _ => none

/-- `created_at < now() - make_interval(…)`. -/
def UserEvent.aged (cutoff : Timestamp) (event : UserEvent) : Bool := event.createdAt < cutoff

namespace Retention

/-- What an execution of the statement meets: the events recorded before it, the clock that it
reads, an order for events of one age, and an error where it fails. -/
structure Execution where
  arrivals : List UserEvent
  now : Timestamp
  arrangement : Arrangement UserEvent.createdAt
  failure : Option DatabaseError

def Execution.cutoff (execution : Execution) (retentionDays : Int) : Timestamp :=
  Sql.retentionCutoff execution.now retentionDays

inductive Failure where
  | negativeLimit
  | database (error : DatabaseError)
  deriving DecidableEq, Repr

/-- The events selected for one chunk: `ORDER BY created_at LIMIT chunk`. -/
def Execution.chosen (execution : Execution) (retentionDays : Int) (chunk : Int64)
    (events : Table userEventLayout) : List UserEvent :=
  let aged := UserEvent.aged (execution.cutoff retentionDays)
  slice chunk.toNatClampNeg 0 (execution.arrangement.order (events.rows.filter aged))

/-- `DELETE FROM user_events WHERE id IN (…)`, and its `rows_affected`. -/
def deleteChunk (execution : Execution) (retentionDays : Int) (chunk : Int64)
    (events : Table userEventLayout) : Except Failure (UInt64 × Table userEventLayout) :=
  match execution.failure with
  | some error => .error (.database error)
  | none =>
      if chunk < 0 then .error .negativeLimit
      else
        let selected :=
          Table.inBatch userEventLayout (execution.chosen retentionDays chunk events)
        .ok (.ofNat (events.affected selected), events.delete selected)

/-- The loop of `delete_aged_user_events_in_chunks`, with what is `deleted` so far, over the
executions of its statement; it has not returned while they go on. -/
def drain (retentionDays : Int) (chunk : Int64) : List Execution → UInt64 →
    Table userEventLayout → Option (Except Failure UInt64 × Table userEventLayout)
  | [], _, _ => none
  | execution :: executions, deleted, events =>
      let events := events.receiveAll execution.arrivals
      match deleteChunk execution retentionDays chunk events with
      | .error failure => some (.error failure, events)
      | .ok (affected, events) =>
          let deleted := deleted + affected
          if affected < chunk.toUInt64 then some (.ok deleted, events)
          else drain retentionDays chunk executions deleted events

/-- `delete_aged_user_events_in_chunks`: each statement is committed by itself. -/
def deleteAgedUserEventsInChunks (retentionDays : Int) (chunk : Int64)
    (executions : List Execution) (events : Table userEventLayout) :
    Option (Except Failure UInt64 × Table userEventLayout) :=
  drain retentionDays chunk executions 0 events

def recorded (executions : List Execution) (events : Table userEventLayout) :
    Table userEventLayout :=
  executions.foldl (fun events execution => events.receiveAll execution.arrivals) events

end Retention

end Loontail
