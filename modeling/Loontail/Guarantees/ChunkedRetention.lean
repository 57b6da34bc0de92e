import Loontail.Network.Retention

/-! # The retention sweep drains the log

The loop returns once a statement deletes fewer events than a chunk holds. By then no aged
event is left, and each was deleted and counted once. -/

namespace Loontail.Retention

open Relational

section Sweep

variable {cutoff : Timestamp} {retentionDays : Int} {chunk : Int64}

theorem toNat_chunk (positive : 1 ≤ chunk) :
    0 < chunk.toNatClampNeg ∧ chunk.toUInt64.toNat = chunk.toNatClampNeg := by
  have above : (0 : Int64) < chunk := Int64.lt_of_lt_of_le (by decide) positive
  exact ⟨chunk.toNatClampNeg_pos_iff.mpr above, Int64.toNat_toUInt64_of_le (Int64.le_of_lt above)⟩

/-- There are too few identifiers for a count of events to overflow. -/
theorem affected_lt (events : Table userEventLayout) (selected : UserEvent → Bool) :
    events.affected selected < 2 ^ 64 := by
  have fewer : events.affected selected ≤ events.rows.length := List.countP_le_length
  have keys := events.length_rows_le
  rw [Fintype.card_fin] at keys
  omega

/-- An execution that does not fail deletes aged events alone, a chunk or all there are. -/
theorem deleteChunk_cases (positive : 1 ≤ chunk) {execution : Execution}
    (fixed : execution.cutoff retentionDays = cutoff) (events : Table userEventLayout) :
    (∃ error, execution.failure = some error ∧
      deleteChunk execution retentionDays chunk events = .error (.database error)) ∨
    ∃ affected after, deleteChunk execution retentionDays chunk events = .ok (affected, after) ∧
      affected.toNat = min chunk.toNatClampNeg (events.affected (UserEvent.aged cutoff)) ∧
      after.affected (UserEvent.aged cutoff) =
        events.affected (UserEvent.aged cutoff) - affected.toNat ∧
      after.delete (UserEvent.aged cutoff) = events.delete (UserEvent.aged cutoff) := by
  have limited : ¬chunk < 0 := Int64.not_lt.mpr
    (Int64.le_of_lt (chunk.toNatClampNeg_pos_iff.mp (toNat_chunk positive).1))
  unfold deleteChunk
  cases execution.failure with
  | some error => exact .inl ⟨error, rfl, rfl⟩
  | none =>
      right
      simp only [if_neg limited]
      have sorted := execution.arrangement.perm (events.rows.filter (UserEvent.aged cutoff))
      have chosen : execution.chosen retentionDays chunk events =
          (execution.arrangement.order (events.rows.filter (UserEvent.aged cutoff))).take
            chunk.toNatClampNeg := by
        rw [Execution.chosen, fixed, slice, List.drop_zero]
      have parts : (execution.chosen retentionDays chunk events ++
          (execution.arrangement.order (events.rows.filter (UserEvent.aged cutoff))).drop
            chunk.toNatClampNeg).Perm (events.rows.filter (UserEvent.aged cutoff)) := by
        rw [chosen, List.take_append_drop]
        exact sorted
      have whole : (execution.arrangement.order
          (events.rows.filter (UserEvent.aged cutoff))).length =
          events.affected (UserEvent.aged cutoff) := by
        rw [sorted.length_eq, Table.affected, List.countP_eq_length_filter]
      have counted : (UInt64.ofNat (events.affected (Table.inBatch userEventLayout
          (execution.chosen retentionDays chunk events)))).toNat =
          min chunk.toNatClampNeg (events.affected (UserEvent.aged cutoff)) := by
        rw [UInt64.toNat_ofNat_of_lt' (affected_lt events _), Table.affected_inBatch parts, chosen,
          List.length_take, whole]
      refine ⟨_, _, rfl, counted, ?_, Table.delete_delete_inBatch parts⟩
      rw [Table.affected_delete_inBatch parts, List.length_drop, whole, counted]
      omega

/-! ## The loop -/

/-- How the loop ends that has `deleted` events already. -/
def Ends (cutoff : Timestamp) (executions : List Execution) (events : Table userEventLayout)
    (deleted : Nat) : Except Failure UInt64 → Table userEventLayout → Prop
  | .ok total, left =>
      total.toNat = deleted + events.affected (UserEvent.aged cutoff) ∧
        left = (recorded executions events).delete (UserEvent.aged cutoff)
  | .error failure, left =>
      (∃ execution ∈ executions, execution.failure.map Failure.database = some failure) ∧
        ∃ count, left.delete (UserEvent.aged cutoff) =
          (recorded (executions.take count) events).delete (UserEvent.aged cutoff)

/-- Events inside the window are recorded alike whether aged ones are there or not. -/
theorem recorded_delete {executions : List Execution}
    (fresh : ∀ execution ∈ executions, ∀ event ∈ execution.arrivals, event.aged cutoff = false)
    (events : Table userEventLayout) :
    (recorded executions events).delete (UserEvent.aged cutoff) =
      recorded executions (events.delete (UserEvent.aged cutoff)) := by
  induction executions generalizing events with
  | nil => rfl
  | cons execution rest induction =>
      have first := @Table.receiveAll_delete _ _ _ userEventLayout events _ _ _ (fun _ => rfl) _
        (fresh execution List.mem_cons_self)
      change (recorded rest (events.receiveAll execution.arrivals)).delete _ = _
      rw [induction (fun other among => fresh other (List.mem_cons_of_mem _ among)), first]
      rfl

theorem Ends.cons {execution : Execution} {rest : List Execution}
    {events after left : Table userEventLayout} {deleted total : Nat}
    {outcome : Except Failure UInt64}
    (fresh : ∀ other ∈ rest, ∀ event ∈ other.arrivals, event.aged cutoff = false)
    (same : after.delete (UserEvent.aged cutoff) =
      (events.receiveAll execution.arrivals).delete (UserEvent.aged cutoff))
    (sum : total + after.affected (UserEvent.aged cutoff) =
      deleted + events.affected (UserEvent.aged cutoff))
    (ends : Ends cutoff rest after total outcome left) :
    Ends cutoff (execution :: rest) events deleted outcome left := by
  have alike : ∀ count, (recorded (rest.take count) after).delete (UserEvent.aged cutoff) =
      (recorded ((execution :: rest).take (count + 1)) events).delete
        (UserEvent.aged cutoff) := by
    intro count
    have among : ∀ other ∈ rest.take count, ∀ event ∈ other.arrivals,
        event.aged cutoff = false := fun other member => fresh other (List.mem_of_mem_take member)
    rw [recorded_delete among, same, ← recorded_delete among, List.take_succ_cons]
    rfl
  cases outcome with
  | ok counted =>
      obtain ⟨number, rows⟩ := ends
      have whole := alike rest.length
      rw [List.take_length, ← List.length_cons, List.take_length] at whole
      exact ⟨number.trans sum, rows.trans whole⟩
  | error failure =>
      obtain ⟨⟨other, member, failed⟩, count, rows⟩ := ends
      exact ⟨⟨other, List.mem_cons_of_mem _ member, failed⟩, count + 1, rows.trans (alike count)⟩

/-- One statement for each chunk and one more, by induction on the executions. -/
theorem drain_ends (positive : 1 ≤ chunk) {executions : List Execution}
    (fixed : ∀ execution ∈ executions, execution.cutoff retentionDays = cutoff)
    (fresh : ∀ execution ∈ executions, ∀ event ∈ execution.arrivals, event.aged cutoff = false)
    (events : Table userEventLayout) (deleted : UInt64)
    (small : deleted.toNat + events.affected (UserEvent.aged cutoff) < 2 ^ 64)
    (enough : events.affected (UserEvent.aged cutoff) / chunk.toNatClampNeg <
      executions.length) :
    ∃ outcome left, drain retentionDays chunk executions deleted events = some (outcome, left) ∧
      Ends cutoff
        (executions.take (events.affected (UserEvent.aged cutoff) / chunk.toNatClampNeg + 1))
        events deleted.toNat outcome left := by
  obtain ⟨size, unsigned⟩ := toNat_chunk positive
  induction executions generalizing events deleted with
  | nil => exact absurd enough (Nat.not_lt_zero _)
  | cons execution rest induction =>
      have waiting := @Table.affected_receiveAll _ _ _ userEventLayout events _ _ _ _
        (fresh execution List.mem_cons_self)
      have later : ∀ other ∈ rest, ∀ event ∈ other.arrivals, event.aged cutoff = false :=
        fun other among => fresh other (List.mem_cons_of_mem _ among)
      rcases deleteChunk_cases positive (fixed execution List.mem_cons_self)
          (events.receiveAll execution.arrivals) with
        ⟨error, failed, result⟩ | ⟨affected, after, result, counted, remaining, same⟩
      · refine ⟨.error (.database error), events.receiveAll execution.arrivals, ?_, ?_⟩
        · simp only [drain, result]
        · rw [List.take_succ_cons]
          exact ⟨⟨execution, List.mem_cons_self, by rw [failed]; rfl⟩, 1, rfl⟩
      · rw [waiting] at counted remaining
        have total : (deleted + affected).toNat = deleted.toNat + affected.toNat := by
          rw [UInt64.toNat_add]
          omega
        by_cases last : affected < chunk.toUInt64
        · -- fewer than a chunk: there were no more, and the rest is empty
          have few : events.affected (UserEvent.aged cutoff) < chunk.toNatClampNeg := by
            have less := UInt64.lt_iff_toNat_lt.mp last
            omega
          have drained : after.affected (UserEvent.aged cutoff) = 0 := by omega
          refine ⟨.ok (deleted + affected), after, ?_, ?_, ?_⟩
          · simp only [drain, result, if_pos last]
          · omega
          · rw [Nat.div_eq_of_lt few, ← Table.delete_eq_self drained, same]
            rfl
        · have full : affected.toNat = chunk.toNatClampNeg := by
            have more := mt UInt64.lt_iff_toNat_lt.mpr last
            omega
          have chunks : events.affected (UserEvent.aged cutoff) / chunk.toNatClampNeg =
              after.affected (UserEvent.aged cutoff) / chunk.toNatClampNeg + 1 := by
            rw [remaining, full]
            exact Nat.div_eq_sub_div size (by omega)
          rw [chunks, List.length_cons] at enough
          obtain ⟨outcome, left, returns, ends⟩ := induction
            (fun other among => fixed other (List.mem_cons_of_mem _ among)) later after
            (deleted + affected) (by omega) (Nat.lt_of_succ_lt_succ enough)
          refine ⟨outcome, left, ?_, ?_⟩
          · simp only [drain, result, if_neg last]
            exact returns
          · rw [chunks, List.take_succ_cons]
            apply Ends.cons _ same _ ends
            · exact fun other among => later other (List.mem_of_mem_take among)
            · omega

/-- The loop returns after at most one statement for each chunk and one more. It has deleted
the aged events and no other, and returns their number, unless a statement fails. -/
theorem chunked_retention_exact (positive : 1 ≤ chunk) (executions : List Execution)
    (fixed : ∀ execution ∈ executions, execution.cutoff retentionDays = cutoff)
    (fresh : ∀ execution ∈ executions, ∀ event ∈ execution.arrivals, event.aged cutoff = false)
    (events : Table userEventLayout)
    (enough : events.affected (UserEvent.aged cutoff) / chunk.toNatClampNeg <
      executions.length) :
    ∃ outcome left,
      deleteAgedUserEventsInChunks retentionDays chunk executions events = some (outcome, left) ∧
        let executed :=
          executions.take (events.affected (UserEvent.aged cutoff) / chunk.toNatClampNeg + 1)
        match outcome with
        | .ok deleted =>
            deleted.toNat = events.affected (UserEvent.aged cutoff) ∧
              left = (recorded executed events).delete (UserEvent.aged cutoff)
        | .error failure =>
            (∃ execution ∈ executed, execution.failure.map Failure.database = some failure) ∧
              ∃ count, left.delete (UserEvent.aged cutoff) =
                (recorded (executed.take count) events).delete (UserEvent.aged cutoff) := by
  have small : (0 : UInt64).toNat + events.affected (UserEvent.aged cutoff) < 2 ^ 64 := by
    rw [UInt64.toNat_zero, Nat.zero_add]
    exact affected_lt events _
  obtain ⟨outcome, left, returns, ends⟩ :=
    drain_ends positive fixed fresh events 0 small enough
  refine ⟨outcome, left, returns, ?_⟩
  cases outcome with
  | ok deleted =>
      rw [UInt64.toNat_zero] at ends
      exact ⟨ends.1.trans (Nat.zero_add _), ends.2⟩
  | error failure => exact ends

end Sweep

/-! ## Five aged events in chunks of two -/

def fortiethDay : Timestamp := 40 * 86400 * microsecondsPerSecond

def loggedEvents : Table userEventLayout where
  rows := [⟨⟨6, by decide⟩, fortiethDay⟩, ⟨⟨5, by decide⟩, 0⟩, ⟨⟨4, by decide⟩, 0⟩,
    ⟨⟨3, by decide⟩, 0⟩, ⟨⟨2, by decide⟩, 0⟩, ⟨⟨1, by decide⟩, 0⟩]
  issued := [⟨6, by decide⟩, ⟨5, by decide⟩, ⟨4, by decide⟩, ⟨3, by decide⟩, ⟨2, by decide⟩,
    ⟨1, by decide⟩]
  keysUnique := by decide
  slotsUnique := by decide
  keysIssued := by decide

def quietExecution : Execution := ⟨[], fortiethDay, .stable, none⟩

theorem chunked_retention_exact_drained :
    ∃ left, deleteAgedUserEventsInChunks 30 2 (.replicate 3 quietExecution) loggedEvents =
        some (.ok 5, left) ∧
      left.rows = [⟨⟨6, by decide⟩, fortiethDay⟩] := by
  have quiet : ∀ execution ∈ List.replicate 3 quietExecution, execution = quietExecution :=
    fun _ member => List.eq_of_mem_replicate member
  obtain ⟨outcome, left, returns, ends⟩ := @chunked_retention_exact
    (Sql.retentionCutoff fortiethDay 30) 30 2 (by decide) (.replicate 3 quietExecution)
    (fun execution member => by rw [quiet execution member]; rfl)
    (fun execution member event arrived => by
      rw [quiet execution member] at arrived
      exact absurd arrived List.not_mem_nil)
    loggedEvents (by decide)
  cases outcome with
  | ok deleted =>
      obtain ⟨number, rows⟩ := ends
      have five : deleted = 5 := UInt64.toNat_inj.mp (number.trans (by decide))
      rw [five] at returns
      refine ⟨left, returns, ?_⟩
      rw [rows]
      decide
  | error failure =>
      obtain ⟨⟨execution, member, failed⟩, -⟩ := ends
      rw [quiet execution (List.mem_of_mem_take member)] at failed
      cases failed

end Loontail.Retention
