import Loontail.Concurrency.Trace
import Loontail.Guarantees.PlayerAccounting
import Loontail.Network.PresenceRevision
import Loontail.Network.SignalingProtocol

/-! # Signaling and presence

A connection that is torn down asks the hub whether it was its user's last and
marks the user offline in a later step. Another connection may have come and
announced the user in between. -/

namespace Loontail

open Concurrency

def registered (userId : Uuid) (process : Nat) (history : List (Event network)) : Bool :=
  history.any fun event => event.process = process && match event.operation with
    | .signaling (.add other _) => other = userId
    | _ => false

def marksOffline (userId : Uuid) : Event network → Bool
  | ⟨_, _, .statement (.presence (.markOffline other)), .ok _, _⟩ => other = userId
  | _ => false

def offlinedSince (userId : Uuid) (process : Nat) : List (Event network) → Bool
  | [] => false
  | event :: older => marksOffline userId event && registered userId process older ||
      offlinedSince userId process older

/-- A connection of the user is served while none of the user's handlers is in
the middle of a step. -/
structure Served (pool : Pool network Request (Except AppError Reply)) (userId : Uuid)
    (process : Nat) : Prop where
  live : ∃ connId, pool.upcoming process = some (.signaling (.serve userId connId))
  quiet : ∀ other operation, registered userId other pool.history = true →
    pool.upcoming other = some operation →
      ∃ connId, operation = .signaling (.serve userId connId)

/-- No teardown of another connection leaves a served user recorded as offline. -/
def PresenceKept (pool : Pool network Request (Except AppError Reply)) : Prop :=
  ∀ userId process, Served pool userId process →
    offlinedSince userId process pool.history = true →
    ∀ presence ∈ pool.shared.database.presence.rows, presence.userId = userId →
      presence.status ≠ .offline

def hasLeft (process : Nat) (history : List (Event network)) : Bool :=
  history.any fun event => event.process = process && match event.operation with
    | .signaling (.remove _ _) => true
    | _ => false

def present (userId : Uuid) (process : Nat) (history : List (Event network)) : Bool :=
  registered userId process history &&
    took history process (.statement (.presence (.markOnline userId))) &&
    !hasLeft process history

/-- No user is marked offline while an announced connection of theirs is
registered, and no announcement fails after a mark that it should undo. -/
def OfflineApart : List (Event network) → Prop
  | [] => True
  | event :: older => (match event with
      | ⟨_, _, .statement (.presence (.markOffline userId)), .ok _, _⟩ =>
          ∀ other ∈ older, present userId other.process older = false
      | ⟨process, _, .statement (.presence (.markOnline userId)), .error _, _⟩ =>
          offlinedSince userId process older = false
      | _ => True) ∧ OfflineApart older

instance OfflineApart.decidable : (history : List (Event network)) →
    Decidable (OfflineApart history)
  | [] => .isTrue trivial
  | event :: older => by
      have := OfflineApart.decidable older
      unfold OfflineApart
      refine @instDecidableAnd _ _ ?_ this
      split <;> infer_instance

theorem OfflineApart.of_suffix {shorter history : List (Event network)}
    (suffix : shorter <:+ history) (apart : OfflineApart history) : OfflineApart shorter := by
  induction history with
  | nil => exact List.suffix_nil.mp suffix ▸ apart
  | cons event older induction =>
      rcases List.suffix_cons_iff.mp suffix with rfl | within
      · exact apart
      · exact induction within apart.2

/-! ## Who writes an offline status -/

section Writers

open Handler

theorem setStatus_sets (auth : Uuid) (body : Network.Presence.SetStatusRequest) :
    (Network.Presence.setStatus auth body).Uses fun operation => ∀ userId worldId,
      operation ≠ .statement (.presence (.setStatus userId .offline worldId)) := by
  rw [uses_iff, Network.Presence.setStatus]
  split
  · trivial
  · rename_i status parsed
    have told := uses_iff.mp (@Network.Presence.broadcastPresence_uses
      (fun operation => ∀ userId worldId,
        operation ≠ .statement (.presence (.setStatus userId .offline worldId)))
      (by simp) auth (by simp))
    have set := PresenceStatus.fromClient_ne_offline parsed
    cases body.currentWorldSessionId <;>
      simp [Network.Presence.checkOwnWorld, forall_except, set, told]

/-- No request sets a status to offline; only a teardown marks it so. -/
theorem handle_sets (state : AppState) (request : Request) :
    (handle state request).Uses fun operation : Operation => ∀ userId worldId,
      operation ≠ .statement (.presence (.setStatus userId .offline worldId)) := by
  by_cases sets : request.purpose = .setStatus
  · cases request with
    | setStatus auth body =>
        refine meets_run.mpr ?_
        rw [Request.handler, meets_map]
        exact uses_iff.mp (setStatus_sets auth body)
    | _ => cases sets
  · have avoids := handle_avoids state sets (by rintro ⟨⟩) (by rintro ⟨⟩)
    refine avoids.mono fun operation other userId worldId same => ?_
    exact other (same ▸ rfl)

def announces (userId : Uuid) : Event network → Bool
  | ⟨_, _, .statement (.presence (.markOnline other)), .ok _, _⟩ => other = userId
  | _ => false

theorem offline_after {event : Event network} (happened : event.Happened)
    (sets : ∀ userId worldId,
      event.operation ≠ .statement (.presence (.setStatus userId .offline worldId)))
    {presence : Presence} (member : presence ∈ event.after.database.presence.rows)
    (offline : presence.status = .offline) :
    marksOffline presence.userId event = true ∨
      announces presence.userId event = false ∧
        ∃ earlier ∈ event.before.database.presence.rows, earlier.userId = presence.userId ∧
          earlier.status = .offline := by
  rcases event with ⟨process, before, operation, result, after⟩
  have occurs : network.Occurs before operation result after := happened
  by_cases succeeds : ∃ statement reply, operation = .statement statement ∧
      HEq result (.ok reply : Except DatabaseError statement.Reply)
  · rcases succeeds with ⟨statement, reply, rfl, same⟩
    cases eq_of_heq same
    have given : ∀ userId worldId,
        statement ≠ .presence (.setStatus userId .offline worldId) :=
      fun userId worldId equal => sets userId worldId (congrArg _ equal)
    rcases occurs_presence occurs presence member with ⟨earlier, present, rfl⟩ | ⟨-, inserted⟩
    · have user : (Operation.revisePresence before.clock earlier (.statement statement)
          (.ok reply)).userId = earlier.userId := Statement.revisePresence_userId _ _ _
      rw [user]
      rcases Statement.offline_of_revised given offline with rfl | ⟨was, silent⟩
      · exact .inl (decide_eq_true rfl)
      · refine .inr ⟨?_, earlier, present, rfl, was⟩
        unfold announces
        split
        · rename_i other _ _ equal
          cases equal
          exact decide_eq_false fun same => silent (same ▸ rfl)
        · rfl
    · exact (Statement.insertsPresence_online given inserted offline).elim
  · have silent : announces presence.userId ⟨process, before, operation, result, after⟩ =
        false := by
      unfold announces
      split
      · rename_i equal
        cases equal
        exact (succeeds ⟨_, _, rfl, HEq.rfl⟩).elim
      · rfl
    rcases occurs_presence occurs presence member with ⟨earlier, present, made⟩ | ⟨-, inserted⟩
    · have same : Operation.revisePresence before.clock earlier operation result = earlier := by
        unfold Operation.revisePresence
        split
        · exact (succeeds ⟨_, _, rfl, HEq.rfl⟩).elim
        · rfl
      have unchanged : presence = earlier := made.trans same
      exact .inr ⟨silent, earlier, present, unchanged ▸ rfl, unchanged ▸ offline⟩
    · unfold Operation.insertsPresence at inserted
      split at inserted
      · exact (succeeds ⟨_, _, rfl, HEq.rfl⟩).elim
      · exact inserted.elim

end Writers

/-! ## The invariant -/

namespace SignalingPhase

def Done (history : List (Event network)) (process : Nat) : SignalingPhase → Prop
  | arriving _ => hasLeft process history = false
  | known .. => hasLeft process history = false
  | added userId _ => registered userId process history = true ∧
      hasLeft process history = false
  | announced userId _ => present userId process history = true
  | _ => True

end SignalingPhase

section Step

variable {history : List (Event network)} {process index : Nat} {event : Event network}

theorem registered_cons (userId : Uuid) :
    registered userId process (event :: history) =
      ((event.process = process && match event.operation with
        | .signaling (.add other _) => other = userId
        | _ => false) || registered userId process history) := rfl

theorem registered_later {userId : Uuid}
    (known : registered userId process history = true) :
    registered userId process (event :: history) = true := by
  rw [registered_cons, known, Bool.or_true]

theorem hasLeft_later (stays : hasLeft process history = false)
    (other : ∀ userId connId, event.process = process →
      event.operation ≠ .signaling (.remove userId connId)) :
    hasLeft process (event :: history) = false := by
  have split : hasLeft process (event :: history) =
      ((event.process = process && match event.operation with
        | .signaling (.remove _ _) => true
        | _ => false) || hasLeft process history) := rfl
  rw [split, stays, Bool.or_false, Bool.and_eq_false_iff]
  by_cases own : event.process = process
  · right
    split
    · rename_i userId connId removes
      exact (other userId connId own removes).elim
    · rfl
  · exact .inl (decide_eq_false own)

theorem present_later {userId : Uuid} (here : present userId process history = true)
    (other : ∀ userId connId, event.process = process →
      event.operation ≠ .signaling (.remove userId connId)) :
    present userId process (event :: history) = true := by
  simp only [present, Bool.and_eq_true, Bool.not_eq_true'] at here ⊢
  exact ⟨⟨registered_later here.1.1, took_later here.1.2⟩, hasLeft_later here.2 other⟩

namespace SignalingPhase

theorem Done.later {phase : SignalingPhase} (done : phase.Done history process)
    (different : event.process ≠ process) : phase.Done (event :: history) process := by
  have apart (userId connId : Uuid) (same : event.process = process) :
      event.operation ≠ .signaling (.remove userId connId) := (different same).elim
  cases phase with
  | arriving connId => exact hasLeft_later done apart
  | known userId connId => exact hasLeft_later done apart
  | added userId connId => exact ⟨registered_later done.1, hasLeft_later done.2 apart⟩
  | announced userId connId => exact present_later done apart
  | _ => trivial

theorem done_after {phase : SignalingPhase} {before after : Service} {operation : Operation}
    {result : operation.Result} (done : phase.Done history process)
    (allowed : phase.allows operation) :
    (phase.after operation result).Done
      (⟨process, before, operation, result, after⟩ :: history) process := by
  have stays (left : hasLeft process history = false)
      (other : ∀ userId connId, operation ≠ .signaling (.remove userId connId)) :
      hasLeft process (⟨process, before, operation, result, after⟩ :: history) = false :=
    hasLeft_later left fun userId connId _ => other userId connId
  cases phase with
  | arriving connId =>
      rcases allowed with ⟨tokenHash, rfl⟩
      have kept := stays done (by simp)
      cases result with
      | error failure => trivial
      | ok row =>
          cases row with
          | none => trivial
          | some user => exact kept
  | known userId connId =>
      cases allowed
      exact ⟨by simp [registered], stays done (by simp)⟩
  | added userId connId =>
      cases allowed
      have kept := stays done.2 (by simp)
      have announced : @took network _ (⟨process, before, .statement (.presence
          (.markOnline userId)), result, after⟩ :: history) process
          (.statement (.presence (.markOnline userId))) = true := by simp [took]
      change present userId process _ = true
      simp only [present, Bool.and_eq_true, Bool.not_eq_true']
      exact ⟨⟨registered_later done.1, announced⟩, kept⟩
  | announced userId connId =>
      have next : (announced userId connId).after operation result = .announced userId connId ∨
          (announced userId connId).after operation result = .leaving userId connId := by
        unfold SignalingPhase.after
        split <;> simp_all
      rcases next with next | next
      · rw [next]
        refine present_later done fun other connId _ removes => ?_
        simp only at removes
        rcases allowed with ordinary | serves
        · rw [removes] at ordinary
          cases ordinary
        · cases removes.symm.trans serves
      · rw [next]
        trivial
  | leaving userId connId =>
      cases allowed
      trivial
  | finished => cases allowed
  | _ => trivial

theorem announced_of_after {phase : SignalingPhase} {operation : Operation}
    {result : operation.Result} {userId connId : Uuid}
    (next : phase.after operation result = .announced userId connId) :
    phase = .announced userId connId ∨ phase = .added userId connId ∧
      ∃ other, operation = .statement (.presence (.markOnline other)) := by
  unfold SignalingPhase.after at next
  split at next <;> simp_all

theorem announced_of_serves {phase : SignalingPhase} {userId connId : Uuid}
    (allowed : phase.allows (.signaling (.serve userId connId))) :
    phase = .announced userId connId := by
  cases phase with
  | announced other otherConn =>
      rcases allowed with ordinary | serves
      · cases ordinary
      · cases serves
        rfl
  | outside => exact (allowed rfl).elim
  | left other otherConn => simp [allows, Operation.purpose] at allowed
  | arriving otherConn => simp [allows] at allowed
  | _ => cases allowed

end SignalingPhase

end Step

structure Announced (owner : Nat → Option Request) (history : List (Event network))
    (service : Service) : Prop where
  done : ∀ index request, owner index = some request →
    (signalingProtocol.phase request index history).Done history index
  online : ∀ index request userId connId, owner index = some request →
    signalingProtocol.phase request index history = .announced userId connId →
    offlinedSince userId index history = true →
    ∀ presence ∈ service.database.presence.rows, presence.userId = userId →
      presence.status ≠ .offline

section Event

variable {owner : Nat → Option Request} {history : List (Event network)}
  {event : Event network} {request : Request}

theorem mem_of_present {userId : Uuid} {process : Nat}
    (here : present userId process history = true) :
    ∃ event ∈ history, event.process = process := by
  simp only [present, Bool.and_eq_true] at here
  rcases List.any_eq_true.mp here.1.1 with ⟨event, member, own⟩
  exact ⟨event, member, by simpa using (Bool.and_eq_true_iff.mp own).1⟩

theorem Announced.after (announced : Announced owner history event.before)
    (happened : event.Happened) (owned : owner event.process = some request)
    (allowed : (signalingProtocol.phase request event.process history).allows event.operation)
    (sets : ∀ userId worldId,
      event.operation ≠ .statement (.presence (.setStatus userId .offline worldId)))
    (apart : OfflineApart (event :: history)) :
    Announced owner (event :: history) event.after := by
  constructor
  · intro index other ownedOther
    by_cases own : event.process = index
    · subst own
      cases Option.some.inj (owned.symm.trans ownedOther)
      rw [Protocol.phase_cons_own request event history]
      exact SignalingPhase.done_after (announced.done event.process request owned) allowed
    · rw [Protocol.phase_cons_other other event own]
      exact (announced.done index other ownedOther).later own
  · intro index other userId connId ownedOther phase marked presence member user offline
    subst user
    have stood : signalingProtocol.phase other index history =
          .announced presence.userId connId ∨
        event.process = index ∧ signalingProtocol.phase other index history =
          .added presence.userId connId ∧
        ∃ named, event.operation = .statement (.presence (.markOnline named)) := by
      by_cases own : event.process = index
      · subst own
        rw [Protocol.phase_cons_own other event history] at phase
        rcases SignalingPhase.announced_of_after phase with stood | ⟨stood, announces⟩
        · exact .inl stood
        · exact .inr ⟨rfl, stood, announces⟩
      · rw [Protocol.phase_cons_other other event own] at phase
        exact .inl phase
    by_cases marks : marksOffline presence.userId event = true
    · -- the mark would have found this connection present
      have absent : ∀ other ∈ history, present presence.userId other.process history = false := by
        unfold marksOffline at marks
        split at marks
        · simp only [decide_eq_true_eq] at marks
          rw [← marks]
          exact apart.1
        · cases marks
      rcases stood with stood | ⟨-, -, named, announces⟩
      · have here : present presence.userId index history = true := by
          have done := announced.done index other ownedOther
          rw [stood] at done
          exact done
        rcases mem_of_present here with ⟨registration, listed, own⟩
        exact Bool.false_ne_true ((absent registration listed).symm.trans (own ▸ here))
      · rcases event with ⟨process, before, operation, result, after⟩
        cases announces
        cases marks
    · have unmarked : marksOffline presence.userId event = false := by simpa using marks
      have earlierMarked : offlinedSince presence.userId index history = true := by
        simpa [offlinedSince, unmarked] using marked
      rcases offline_after happened sets member offline with now | ⟨silent, earlier, there, same,
        was⟩
      · exact marks now
      · rcases stood with stood | ⟨rfl, stood, named, makes⟩
        · exact announced.online index other _ connId ownedOther stood earlierMarked earlier
            there same was
        · cases Option.some.inj (owned.symm.trans ownedOther)
          rw [stood] at allowed
          rcases event with ⟨process, before, operation, result, after⟩
          cases allowed
          cases result with
          | ok reply =>
              have announcing : announces presence.userId ⟨process, before,
                  .statement (.presence (.markOnline presence.userId)), .ok reply, after⟩ =
                  true := decide_eq_true rfl
              exact Bool.false_ne_true (silent.symm.trans announcing)
          | error failure => exact Bool.false_ne_true (apart.1.symm.trans earlierMarked)

theorem Announced.of_trace {start final : Service} (traced : Traced start history final)
    (obeyed : ∀ event older, event :: older <:+ history → ∃ request,
      owner event.process = some request ∧
        (signalingProtocol.phase request event.process older).allows event.operation)
    (sets : ∀ event ∈ history, ∀ userId worldId,
      event.operation ≠ .statement (.presence (.setStatus userId .offline worldId)))
    (apart : OfflineApart history) : Announced owner history final := by
  refine @Traced.invariant network _ _ _ (Announced owner) traced ?_ ?_
  · constructor
    · intro index request _
      cases request with
      | signaling token connId => rfl
      | _ => trivial
    · intro index request userId connId _ _ marked
      cases marked
  · intro event older suffix happened announced
    rcases obeyed event older suffix with ⟨request, owned, allowed⟩
    exact announced.after happened owned allowed (sets event (suffix.subset (by simp)))
      (apart.of_suffix suffix)

end Event

/-! ## Every run -/

/-- While no mark finds an announced connection of its user registered, no
teardown leaves a served user recorded as offline. -/
theorem presence_kept (state : AppState) (database : Database) (clock : Timestamp)
    {moves : List (Move Request)} {final : Pool network Request (Except AppError Reply)}
    (reached : run (Pool.move (handle state)) (.initial (.boot database clock)) moves =
      some final) (apart : OfflineApart final.history) : PresenceKept final := by
  have announced := Announced.of_trace (Pool.traced_of_run reached)
    (fun event older suffix => Pool.allowed_in_phase (handle_signals state) reached suffix)
    (Pool.allowed_of_run (handle_sets state) reached) apart
  have obeys := Pool.obeys_of_run (handle_signals state) reached
  intro userId process served marked
  rcases served.live with ⟨connId, serves⟩
  rcases Option.bind_eq_some_iff.mp serves with ⟨⟨request, current⟩, found, next⟩
  have allowed : (signalingProtocol.phase request process final.history).allows
      (.signaling (.serve userId connId)) := by
    cases current with
    | done outcome => cases next
    | call operation rest =>
        cases next
        exact obeys.allows found
  exact announced.online process request userId connId (Pool.owner_of_entry found)
    (SignalingPhase.announced_of_serves allowed) marked

/-- One connection leaves, and is marked offline before another comes. -/
def leftThenCame : List (Move Request) :=
  .start (.signaling (some "session") 8) :: List.replicate 10 (.advance 0) ++
    .start (.signaling (some "session") 9) :: List.replicate 4 (.advance 1)

theorem presence_kept_reconnect :
    ∃ final, run (Pool.move (handle plainState)) (.initial (.boot hostedDatabase 0))
        leftThenCame = some final ∧
      final.upcoming 1 = some (.signaling (.serve 5 9)) ∧ PresenceKept final := by
  have fair : ((run (Pool.move (handle plainState)) (.initial (.boot hostedDatabase 0))
      leftThenCame).map fun final => decide (
        final.upcoming 1 = some (.signaling (.serve 5 9)) ∧ OfflineApart final.history)) =
      some true := by decide +kernel
  rcases Option.map_eq_some_iff.mp fair with ⟨final, reached, holds⟩
  rcases of_decide_eq_true holds with ⟨serves, apart⟩
  exact ⟨final, reached, serves, presence_kept plainState hostedDatabase 0 reached apart⟩

/-- The second connection comes and is announced between the first one's look at
the hub and its mark. -/
def cameMeanwhile : List (Move Request) :=
  .start (.signaling (some "session") 8) :: List.replicate 7 (.advance 0) ++
    .start (.signaling (some "session") 9) :: List.replicate 4 (.advance 1) ++
    List.replicate 3 (.advance 0)

/-- A served user can be recorded as offline. -/
theorem presence_lost :
    ¬∀ (state : AppState) (database : Database) (clock : Timestamp)
      (moves : List (Move Request)) (final : Pool network Request (Except AppError Reply)),
      run (Pool.move (handle state)) (.initial (.boot database clock)) moves = some final →
        PresenceKept final := by
  intro kept
  have lost : ((run (Pool.move (handle plainState)) (.initial (.boot hostedDatabase 0))
      cameMeanwhile).map fun final => decide (
        final.upcoming 1 = some (.signaling (.serve 5 9)) ∧
        (∀ event ∈ final.history, ∀ operation ∈ final.upcoming event.process,
          operation = .signaling (.serve 5 9)) ∧
        offlinedSince 5 1 final.history = true ∧
        ∃ presence ∈ final.shared.database.presence.rows,
          presence.userId = 5 ∧ presence.status = .offline)) = some true := by decide +kernel
  rcases Option.map_eq_some_iff.mp lost with ⟨final, reached, holds⟩
  rcases of_decide_eq_true holds with ⟨serves, quiet, marked, presence, member, user, offline⟩
  refine kept plainState hostedDatabase 0 cameMeanwhile final reached 5 1
    ⟨⟨9, serves⟩, fun other operation known next => ?_⟩ marked presence member user offline
  rcases List.any_eq_true.mp known with ⟨event, listed, own⟩
  have same : event.process = other := by simpa using (Bool.and_eq_true_iff.mp own).1
  exact ⟨9, quiet event listed operation (same ▸ next)⟩

end Loontail
