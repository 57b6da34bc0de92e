import Loontail.Network.TransactionProtocol

/-! # What a row lock keeps

From the moment an acceptance has locked a friend request until its transaction
ends, the request is as it was locked: no other transaction's statement writes
it, and no two processes share a transaction. -/

namespace Loontail

open Concurrency Relational Network

abbrev transacting (process : Nat) (history : List (Event network)) : TransactionPhase :=
  transactionProtocol.phase (.tick 0) process history

/-! ## One operation -/

section Operation

variable {before after : Service} {operation : Operation} {result : operation.Result}

/-- A lock lasts until its own transaction ends. -/
theorem occurs_locks (occurs : network.Occurs before operation result after) {lock : RowLock}
    (held : lock ∈ before.locks) (other : operation.transaction ≠ some lock.owner) :
    lock ∈ after.locks := by
  cases operation with
  | statement statement =>
      rcases occurs_statement occurs with ⟨-, -, rfl⟩ | ⟨reply, database, -, -, rfl⟩
      · exact held
      · have apart : ∀ transaction : Transaction, statement.transaction = some transaction →
            lock.owner ≠ transaction.id := by
          rintro transaction named same
          exact other (by simp [Operation.transaction, named, same])
        change lock ∈ statement.locksAfter before.locks reply
        unfold Statement.locksAfter
        split
        all_goals first
          | exact held
          | exact List.mem_cons_of_mem _ held
          | exact List.mem_append_right _ held
          | exact List.mem_filter.mpr ⟨held, by simpa using apart _ rfl⟩
  | rollback transaction =>
      rcases occurs with ⟨-, performed⟩ | ⟨fault, -⟩
      · cases performed
        refine List.mem_filter.mpr ⟨held, ?_⟩
        have apart : lock.owner ≠ transaction.id := fun same => other (congrArg some same.symm)
        simpa using apart
      · cases fault
  | signaling own =>
      have left := congrArg Prod.snd (occurs_signaling occurs)
      subst left
      cases own <;> exact held
  | relay own =>
      have left := congrArg Prod.snd (occurs_relay occurs)
      subst left
      cases own <;> exact held
  | _ =>
      rcases occurs with ⟨-, performed⟩ | ⟨-, rfl⟩
      · cases performed
        exact held
      · exact held

theorem occurs_locked (occurs : network.Occurs before operation result after) {id owner : Uuid}
    (held : ⟨.friendRequest id, owner⟩ ∈ before.locks)
    (other : operation.transaction ≠ some owner) :
    after.database.friendRequests.find id = before.database.friendRequests.find id := by
  cases operation with
  | statement statement =>
      rcases occurs with ⟨ready, performed⟩ | ⟨-, rfl⟩
      · have waits := List.all_eq_true.mp ready _ held
        simp only [Statement.waitsFor, Bool.not_eq_true', Bool.and_eq_false_iff,
          Bool.or_eq_false_iff, decide_eq_false_iff_not] at waits
        have unwritten : statement.writes before.clock before.database (.friendRequest id) =
            false := by
          rcases waits with own | waits
          · exact (other (by simpa [Operation.transaction] using own)).elim
          · exact waits.2
        have occurs : network.Occurs before (.statement statement) result after :=
          .inl ⟨ready, performed⟩
        rcases occurs_statement occurs with ⟨-, -, rfl⟩ | ⟨reply, database, -, executed, rfl⟩
        · rfl
        · simp only [Statement.writes, executed, decide_eq_false_iff_not, not_not] at unwritten
          exact unwritten.symm
      · rfl
  | _ => rw [occurs_database (by simp) occurs]

theorem occurs_transactions (occurs : network.Occurs before operation result after) :
    before.transactions ≤ after.transactions := by
  cases operation with
  | statement statement =>
      rcases occurs_statement occurs with ⟨-, -, rfl⟩ | ⟨_, _, -, -, rfl⟩
      · exact le_refl _
      · exact le_refl _
  | signaling own =>
      have left := congrArg Prod.snd (occurs_signaling occurs)
      subst left
      cases own <;> exact le_refl _
  | relay own =>
      have left := congrArg Prod.snd (occurs_relay occurs)
      subst left
      cases own <;> exact le_refl _
  | begin =>
      rcases occurs with ⟨-, performed⟩ | ⟨-, rfl⟩
      · cases performed
        exact Nat.le_succ _
      · exact le_refl _
  | _ =>
      rcases occurs with ⟨-, performed⟩ | ⟨-, rfl⟩
      · cases performed
        exact le_refl _
      · exact le_refl _

end Operation

theorem occurs_begin {before after : Service} {transaction : Transaction}
    (occurs : network.Occurs before .begin (.ok transaction) after) :
    transaction.id = before.transactions ∧ after.transactions = before.transactions + 1 := by
  rcases occurs with ⟨-, performed⟩ | ⟨fault, -⟩
  · cases performed
    exact ⟨rfl, rfl⟩
  · cases fault

/-! ## The phase after an operation -/

namespace TransactionPhase

variable {phase : TransactionPhase} {operation : Operation} {result : operation.Result}

theorem current_after {id : Nat} (current : (phase.after operation result).current = some id) :
    phase.current = some id ∨ phase = outside ∧ ∃ transaction : Transaction,
      transaction.id = id ∧ operation = .begin ∧
      HEq result (.ok transaction : Except DatabaseError Transaction) := by
  unfold after at current
  split at current
  · rename_i transaction
    cases current
    exact .inr ⟨rfl, transaction, rfl, rfl, HEq.rfl⟩
  · exact .inl current
  · cases current
  · cases current
  · cases current
  · exact .inl current

theorem current_of_allows {id : Nat} (allowed : phase.allows operation)
    (named : operation.transaction = some id) : phase.current = some id := by
  cases phase with
  | outside =>
      rw [show operation.transaction = none from allowed] at named
      cases named
  | begun transaction =>
      rcases allowed with ⟨none | own, -⟩ | rfl | ⟨_, rfl⟩
      · rw [none] at named
        cases named
      · exact own.symm.trans named
      · exact named
      · exact named
  | locked transaction locked request =>
      rcases allowed with rfl | ⟨-, _, rfl⟩
      · exact named
      · exact named

/-- A request is locked as it was read, and stays so while nothing is done. -/
theorem locked_after {transaction : Transaction} {id : Uuid} {request : FriendRequest}
    (allowed : phase.allows operation)
    (locks : phase.after operation result = locked transaction id request) :
    phase = begun transaction ∧ operation = .statement (.friend (.lockRequest transaction id)) ∧
        HEq result (.ok (some request) : Except DatabaseError (Option FriendRequest)) ∨
      phase = locked transaction id request ∧ ∃ fromUserId toUserId newId error,
        operation = .statement
          (.friend (.commitAccept transaction id fromUserId toUserId newId)) ∧
        HEq result (.error error : Except DatabaseError Unit) := by
  cases phase with
  | outside =>
      unfold after at locks
      split at locks <;> simp_all
  | begun own =>
      rcases allowed with within | rfl | ⟨requested, rfl⟩
      · rw [begun_after within] at locks
        cases locks
      · cases locks
      · cases result with
        | error failure => cases locks
        | ok found =>
            cases found with
            | none => cases locks
            | some row =>
                cases locks
                exact .inl ⟨rfl, rfl, HEq.rfl⟩
  | locked own held row =>
      rcases allowed with rfl | ⟨-, newId, rfl⟩
      · cases locks
      · cases result with
        | ok reply => cases locks
        | error failure =>
            cases locks
            exact .inr ⟨rfl, _, _, newId, failure, rfl, HEq.rfl⟩

theorem locked_of_commits {transaction : Transaction} {id fromUserId toUserId newId : Uuid}
    (allowed : phase.allows (.statement
      (.friend (.commitAccept transaction id fromUserId toUserId newId)))) :
    ∃ request, phase = locked transaction id request ∧ request.status = .pending ∧
      request.fromUserId = fromUserId ∧ request.toUserId = toUserId := by
  cases phase with
  | outside => cases allowed
  | begun transaction =>
      rcases allowed with ⟨-, -, other, -⟩ | ends | ⟨_, locks⟩
      · exact (other rfl).elim
      · cases ends
      · cases locks
  | locked transaction locked request =>
      rcases allowed with ends | ⟨pending, _, commits⟩
      · cases ends
      · cases commits
        exact ⟨request, rfl, pending, rfl, rfl⟩

end TransactionPhase

/-! ## Every run -/

/-- The processes are in transactions of their own, and each locked friend
request is still as it was read. -/
structure Holds (history : List (Event network)) (service : Service) : Prop where
  begun : ∀ process id, (transacting process history).current = some id →
    id < service.transactions
  apart : ∀ process other id, (transacting process history).current = some id →
    (transacting other history).current = some id → process = other
  held : ∀ process transaction id request,
    transacting process history = .locked transaction id request →
      ⟨.friendRequest id, transaction.id⟩ ∈ service.locks ∧
      service.database.friendRequests.find id = some request

theorem holds_boot (database : Database) (clock : Timestamp) :
    Holds [] (.boot database clock) where
  begun := by
    intro process id current
    cases current
  apart := by
    intro process other id current
    cases current
  held := by
    intro process transaction id request locks
    cases locks

theorem Holds.after {event : Event network} {older : List (Event network)}
    (holds : Holds older event.before) (happened : event.Happened)
    (allowed : (transacting event.process older).allows event.operation) :
    Holds (event :: older) event.after := by
  have own : transacting event.process (event :: older) =
      (transacting event.process older).after event.operation event.result :=
    Protocol.phase_cons_own _ event older
  have others : ∀ other, event.process ≠ other →
      transacting other (event :: older) = transacting other older :=
    fun other different => Protocol.phase_cons_other _ event different older
  have earlier : ∀ process id, (transacting process (event :: older)).current = some id →
      (transacting process older).current = some id ∨
        process = event.process ∧ id = event.before.transactions ∧
          event.after.transactions = event.before.transactions + 1 := by
    intro process id current
    by_cases same : event.process = process
    · subst same
      rw [own] at current
      rcases TransactionPhase.current_after current with was | ⟨-, transaction, rfl, begins, result⟩
      · exact .inl was
      · rcases event with ⟨index, before, operation, outcome, after⟩
        cases begins
        cases result
        have counted := occurs_begin happened
        exact .inr ⟨rfl, counted.1, counted.2⟩
    · rw [others process same] at current
      exact .inl current
  have grown := occurs_transactions happened
  refine ⟨?_, ?_, ?_⟩
  · intro process id current
    rcases earlier process id current with was | ⟨-, rfl, counted⟩
    · exact Nat.lt_of_lt_of_le (holds.begun process id was) grown
    · omega
  · intro process other id current shared
    rcases earlier process id current with was | ⟨rfl, rfl, -⟩
    · rcases earlier other id shared with also | ⟨rfl, rfl, -⟩
      · exact holds.apart process other id was also
      · exact (Nat.lt_irrefl _ (holds.begun process _ was)).elim
    · rcases earlier other _ shared with also | ⟨rfl, -, -⟩
      · exact (Nat.lt_irrefl _ (holds.begun other _ also)).elim
      · rfl
  · intro process transaction id request locks
    by_cases same : event.process = process
    · subst same
      rw [own] at locks
      rcases event with ⟨index, before, operation, outcome, after⟩
      rcases TransactionPhase.locked_after allowed locks with ⟨-, rfl, result⟩ |
        ⟨was, _, _, _, error, rfl, result⟩
      · cases result
        have occurs : network.Occurs before (.statement
            (.friend (.lockRequest transaction id))) (.ok (some request)) after := happened
        rcases occurs_ok occurs with ⟨database, executed, rfl⟩
        have reply := congrArg Prod.fst (Except.ok.inj executed)
        have left := congrArg Prod.snd (Except.ok.inj executed)
        subst left
        exact ⟨List.mem_cons_self, reply⟩
      · cases result
        have occurs : network.Occurs before (.statement (.friend (.commitAccept transaction id
            _ _ _))) (.error error) after := happened
        rcases occurs_statement occurs with ⟨_, -, rfl⟩ | ⟨_, _, fails, -⟩
        · exact holds.held index transaction id request was
        · cases fails
    · rw [others process same] at locks
      have held := holds.held process transaction id request locks
      have other : event.operation.transaction ≠ some transaction.id := by
        intro named
        apply same
        refine holds.apart event.process process transaction.id
          (TransactionPhase.current_of_allows allowed named) ?_
        rw [locks]
        rfl
      exact ⟨occurs_locks happened held.1 other,
        (occurs_locked happened held.1 other).trans held.2⟩

theorem holds_of_run {state : AppState} {database : Database} {clock : Timestamp}
    {moves : List (Move Request)} {final : Pool network Request (Except AppError Reply)}
    (reached : run (Pool.move (handle state)) (.initial (.boot database clock)) moves =
      some final)
    {event : Event network} {older : List (Event network)}
    (suffix : event :: older <:+ final.history) :
    Holds older event.before ∧ (transacting event.process older).allows event.operation := by
  have obeyed : ∀ past before, past :: before <:+ final.history →
      (transacting past.process before).allows past.operation := by
    intro past before within
    rcases Pool.allowed_in_phase (handle_transacts state) reached within with ⟨_, -, allowed⟩
    exact allowed
  have traced := (Pool.traced_of_run reached).of_suffix suffix
  refine ⟨?_, obeyed event older suffix⟩
  refine @Traced.invariant network _ _ _ Holds traced.1 (holds_boot database clock) ?_
  intro past before within happened holds
  exact holds.after happened (obeyed past before
    (within.trans ((List.suffix_cons _ _).trans suffix)))

end Loontail
