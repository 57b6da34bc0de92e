import Loontail.Observability.RequestLog

/-! # Request records reach the database once

In every order of arrivals, timers and the close of the channel, the batches are the records
that were received, and the statement of a batch puts each value into its own column. -/

namespace Loontail.Observability

section Conserved

variable {writer : Writer} (conserved : writer.Conserved)
include conserved

theorem flatten_passed (settled : writer.phase ≠ .filling) :
    writer.passed.flatten = writer.received := by
  have taken := conserved.taken
  rwa [conserved.empty settled, List.append_nil] at taken

theorem flatten_passed_of_stopped (stopped : writer.phase = .stopped) :
    writer.passed.flatten = writer.accepted := by
  have kept := conserved.kept
  rw [(conserved.drained stopped).2, List.append_nil] at kept
  rw [flatten_passed conserved (by rw [stopped]; decide), kept]

end Conserved

theorem insertBatch_eq (batch : List RequestLog) : insertBatch batch =
    if batch = [] then none else some ((numbered batch.length).text, binds batch) := by
  rw [insertBatch, insertSql_eq]
  cases batch with
  | nil => rfl
  | cons log rest => rfl

/-! ## The three triggers -/

theorem run_snoc (events : List WriterEvent) (event : WriterEvent) :
    Writer.run (events ++ [event]) = (Writer.run events).step event := List.foldl_append

section Triggers

variable (events : List WriterEvent)

theorem passed_of_full {log : RequestLog} {rest : List RequestLog}
    (channel : (Writer.run events).channel = log :: rest)
    (full : (Writer.run events).batch.length + 1 = batchMax) :
    (Writer.run (events ++ [.receive])).passed =
      (Writer.run events).passed ++ [(Writer.run events).batch ++ [log]] := by
  have conserved := Writer.run_conserved events
  have filling : (Writer.run events).phase = .filling := by
    by_contra settled
    rw [conserved.empty settled] at full
    exact absurd full (by decide)
  have reached : ¬((Writer.run events).batch ++ [log]).length < batchMax := by
    rw [List.length_append, List.length_singleton]
    omega
  rw [run_snoc]
  simp only [Writer.step, filling, channel, Writer.push, Writer.fill, if_neg reached,
    Writer.flush]

theorem passed_of_linger (filling : (Writer.run events).phase = .filling)
    (expired : (Writer.run events).expired = true) :
    (Writer.run (events ++ [.linger])).passed =
      (Writer.run events).passed ++ [(Writer.run events).batch] := by
  rw [run_snoc]
  simp only [Writer.step, filling, expired, decide_true, Bool.and_self, if_true, Writer.flush]

theorem passed_of_closed (filling : (Writer.run events).phase = .filling)
    (channel : (Writer.run events).channel = [])
    (closed : (Writer.run events).closed = true) :
    (Writer.run (events ++ [.receive])).passed =
      (Writer.run events).passed ++ [(Writer.run events).batch] := by
  rw [run_snoc]
  simp only [Writer.step, filling, channel, closed, if_true, Writer.flush]

/-- Once the channel is closed the loop ends, and everything that was accepted is passed on. -/
theorem records_drained : ∃ count,
    let drained := Writer.run (events ++ .close :: .replicate count .receive)
    drained.phase = .stopped ∧ drained.passed.flatten = (Writer.run events).accepted := by
  have before := (Writer.run_conserved events).step .close
  refine ⟨((Writer.run events).step .close).remaining, ?_⟩
  have stopped := Writer.stopped_of_receives rfl before (Nat.le_refl _)
  have whole : Writer.run (events ++ .close :: .replicate
      ((Writer.run events).step .close).remaining .receive) =
        (List.replicate ((Writer.run events).step .close).remaining WriterEvent.receive).foldl
          Writer.step ((Writer.run events).step .close) := List.foldl_append
  have accepted := Writer.accepted_receives
    ((Writer.run events).step .close).remaining ((Writer.run events).step .close)
  rw [← whole] at stopped accepted
  exact ⟨stopped,
    (flatten_passed_of_stopped (Writer.run_conserved _) stopped).trans accepted⟩

end Triggers

/-- The batches of a run make up what was received, apart from the records of a batch that is being
filled, and at its end what was put into the channel. A batch is passed on at its 256th record, at
the end of its linger and at the close of the channel, after which the loop drains the channel and
ends. The statement of a batch inserts its records, each value into the column of its name. -/
theorem records_conserved (events : List WriterEvent) :
    let writer := Writer.run events
    writer.passed.flatten ++ writer.batch = writer.received ∧
      (writer.phase ≠ .filling → writer.passed.flatten = writer.received) ∧
      (writer.phase = .stopped → writer.passed.flatten = writer.accepted) ∧
      (∀ batch ∈ writer.passed, 1 ≤ batch.length ∧ batch.length ≤ batchMax) ∧
      (∀ log rest, writer.channel = log :: rest → writer.batch.length + 1 = batchMax →
        (Writer.run (events ++ [.receive])).passed =
          writer.passed ++ [writer.batch ++ [log]]) ∧
      (writer.phase = .filling → writer.expired = true →
        (Writer.run (events ++ [.linger])).passed = writer.passed ++ [writer.batch]) ∧
      (writer.phase = .filling → writer.channel = [] → writer.closed = true →
        (Writer.run (events ++ [.receive])).passed = writer.passed ++ [writer.batch]) ∧
      (∃ count,
        let drained := Writer.run (events ++ .close :: .replicate count .receive)
        drained.phase = .stopped ∧ drained.passed.flatten = writer.accepted) ∧
      ∀ batch, insertBatch batch =
          (if batch = [] then none else some ((numbered batch.length).text, binds batch)) ∧
        (numbered batch.length).rows (binds batch) =
          batch.map fun log => log.columns.map fun (name, value) => (name, some value) := by
  have conserved := Writer.run_conserved events
  exact ⟨conserved.taken, flatten_passed conserved, flatten_passed_of_stopped conserved,
    conserved.sizes, fun _ _ => passed_of_full events, passed_of_linger events,
    passed_of_closed events, records_drained events,
    fun batch => ⟨insertBatch_eq batch, rows_binds batch⟩⟩

end Loontail.Observability
