import Loontail.Guarantees.PlayerAccounting
import Loontail.Network.FriendRevision
import Loontail.Network.RowLocks

/-! # Friend requests

An acceptance holds its row, but a decline reads and writes in two steps, and a
new request is checked against friendships and the crossing request before it is
inserted. -/

namespace Loontail

open Concurrency Relational Network

def acceptedBy (event : Event network) : Option Uuid :=
  match event.operation, event.result with
  | .statement (.friend (.commitAccept _ id _ _ _)), .ok _ => some id
  | _, _ => none

def declinedBy (event : Event network) : Option Uuid :=
  match event.operation, event.result with
  | .statement (.friend (.decline id)), .ok _ => some id
  | _, _ => none

def requestedBy (event : Event network) : Option (Uuid × Uuid) :=
  match event.operation, event.result with
  | .statement (.friend (.insertRequest fromUserId toUserId _)), .ok _ =>
      some (fromUserId, toUserId)
  | _, _ => none

def FriendRequest.Decided (request : FriendRequest) : Prop :=
  request.status = .accepted ∨ request.status = .declined

/-- A decided request keeps its status, and one that made friends is not declined
in the end. -/
structure DecidedOnce (pool : Pool network Request (Except AppError Reply)) : Prop where
  kept : ∀ event ∈ pool.history, ∀ id request,
    event.before.database.friendRequests.find id = some request → request.Decided →
      ∃ later, event.after.database.friendRequests.find id = some later ∧
        later.status = request.status
  befriended : ∀ event ∈ pool.history, ∀ id, acceptedBy event = some id →
    ∃ request, pool.shared.database.friendRequests.find id = some request ∧
      request.status = .accepted

def DeclinesUnaccepted (event : Event network) : Prop :=
  ∀ id ∈ declinedBy event, ∀ request ∈ event.before.database.friendRequests.find id,
    request.status ≠ .accepted

instance (event : Event network) : Decidable (DeclinesUnaccepted event) := by
  unfold DeclinesUnaccepted
  infer_instance

/-- At most one request is pending between two users, and none between friends. -/
structure Database.OnePending (database : Database) : Prop where
  unique : ∀ left ∈ database.friendRequests.rows, ∀ right ∈ database.friendRequests.rows,
    left.status = .pending → right.status = .pending →
      (left.fromUserId = right.fromUserId ∧ left.toUserId = right.toUserId ∨
        left.fromUserId = right.toUserId ∧ left.toUserId = right.fromUserId) → left = right
  strangers : ∀ request ∈ database.friendRequests.rows, request.status = .pending →
    database.areFriends request.fromUserId request.toUserId = false

def RequestsStranger (event : Event network) : Prop :=
  ∀ pair ∈ requestedBy event, event.before.database.areFriends pair.1 pair.2 = false ∧
    Sql.pendingRequest pair.2 pair.1 event.before.database = none

instance (event : Event network) : Decidable (RequestsStranger event) := by
  unfold RequestsStranger
  infer_instance

/-! ## One event -/

section Event

variable {event : Event network} {older : List (Event network)}

/-- What an event accepts was locked pending, between the users it makes friends. -/
theorem Holds.accepts {before : Service} {process : Nat} {transaction : Transaction}
    {id fromUserId toUserId newId : Uuid} (holds : Holds older before)
    (allowed : (transacting process older).allows (.statement
      (.friend (.commitAccept transaction id fromUserId toUserId newId)))) :
    ∃ request, before.database.friendRequests.find id = some request ∧
      request.status = .pending ∧ request.fromUserId = fromUserId ∧
      request.toUserId = toUserId := by
  rcases TransactionPhase.locked_of_commits allowed with ⟨request, locked, pending, users⟩
  exact ⟨request, (holds.held process transaction id request locked).2, pending, users⟩

theorem decided_after (holds : Holds older event.before) (happened : event.Happened)
    (allowed : (transacting event.process older).allows event.operation)
    (unaccepted : DeclinesUnaccepted event) {id : Uuid} {request : FriendRequest}
    (found : event.before.database.friendRequests.find id = some request)
    (decided : request.Decided) :
    ∃ later, event.after.database.friendRequests.find id = some later ∧
      later.status = request.status := by
  rcases event with ⟨process, before, operation, result, after⟩
  have occurs : network.Occurs before operation result after := happened
  cases operation with
  | statement statement =>
      rcases occurs_statement occurs with ⟨-, -, rfl⟩ | ⟨reply, database, rfl, executed, rfl⟩
      · exact ⟨request, found, rfl⟩
      · refine ⟨_, (Statement.execute_befriended executed).found id request found, ?_⟩
        have here : request.id = id := (Table.find_eq_some.mp found).2
        unfold Statement.reviseFriendRequest
        split
        · rename_i accepted fromUserId toUserId newId
          split
          · rename_i same
            obtain ⟨row, locked, pending, -⟩ := holds.accepts allowed
            rw [← same, here] at locked
            cases locked.symm.trans found
            rcases decided with accepted | declined
            · rw [pending] at accepted
              cases accepted
            · rw [pending] at declined
              cases declined
          · rfl
        · rename_i declined
          split
          · rename_i same
            have open_ := unaccepted declined rfl request (by rw [← same, here]; exact found)
            exact (decided.resolve_left open_).symm
          · rfl
        · rfl
  | _ =>
      refine ⟨request, ?_, rfl⟩
      rw [show after.database = before.database from occurs_database (by simp) occurs]
      exact found

theorem accepted_after (holds : Holds older event.before) (happened : event.Happened)
    (allowed : (transacting event.process older).allows event.operation) {id : Uuid}
    (accepts : acceptedBy event = some id) :
    ∃ request, event.after.database.friendRequests.find id = some request ∧
      request.status = .accepted := by
  rcases event with ⟨process, before, operation, result, after⟩
  have occurs : network.Occurs before operation result after := happened
  simp only [acceptedBy] at accepts
  split at accepts
  · rename_i transaction accepted fromUserId toUserId newId reply
    cases accepts
    obtain ⟨row, found, -⟩ := holds.accepts allowed
    rcases occurs_ok occurs with ⟨database, executed, rfl⟩
    refine ⟨_, (Statement.execute_befriended executed).found id row found, ?_⟩
    have here : row.id = id := (Table.find_eq_some.mp found).2
    simp [Statement.reviseFriendRequest, here]
  · cases accepts

end Event

/-! ## Decided once -/

theorem accepted_of_trace {start final : Service} {history : List (Event network)}
    (traced : @Traced network start history final)
    (obeyed : ∀ event older, event :: older <:+ history → Holds older event.before ∧
      (transacting event.process older).allows event.operation)
    (unaccepted : ∀ event ∈ history, DeclinesUnaccepted event) :
    ∀ event ∈ history, ∀ id, acceptedBy event = some id →
      ∃ request, final.database.friendRequests.find id = some request ∧
        request.status = .accepted := by
  refine @Traced.invariant network _ _ _ (fun past service => ∀ event ∈ past, ∀ id,
    acceptedBy event = some id → ∃ request,
      service.database.friendRequests.find id = some request ∧ request.status = .accepted)
    traced (by simp) ?_
  intro event older suffix happened accepted past member id accepts
  obtain ⟨holds, allowed⟩ := obeyed event older suffix
  rcases List.mem_cons.mp member with rfl | earlier
  · exact accepted_after holds happened allowed accepts
  · obtain ⟨request, found, status⟩ := accepted past earlier id accepts
    obtain ⟨later, left, same⟩ := decided_after holds happened allowed
      (unaccepted event (suffix.subset (by simp))) found (.inl status)
    exact ⟨later, left, same.trans status⟩

/-- While declines find their request unaccepted, a decided request stays as it
was decided. -/
theorem friend_requests_decided_once (state : AppState) (database : Database)
    (clock : Timestamp) {moves : List (Move Request)}
    {final : Pool network Request (Except AppError Reply)}
    (reached : run (Pool.move (handle state)) (.initial (.boot database clock)) moves =
      some final) (unaccepted : ∀ event ∈ final.history, DeclinesUnaccepted event) :
    DecidedOnce final where
  kept := by
    intro event member id request found decided
    obtain ⟨older, suffix⟩ := suffix_of_mem member
    obtain ⟨holds, allowed⟩ := holds_of_run reached suffix
    have happened := ((Pool.traced_of_run reached).of_suffix suffix).2
    exact decided_after holds happened allowed (unaccepted event member) found decided
  befriended := by
    have traced := Pool.traced_of_run reached
    exact accepted_of_trace traced (fun event older suffix => holds_of_run reached suffix)
      unaccepted

def strangersDatabase : Database :=
  { Database.empty with
    users := {
      rows := [
        { id := 5, minecraftUuid := none, username := "steve", accountType := none
          xuid := none, clientId := none, blocked := false, lastSeenAt := 0, updatedAt := 0 },
        { id := 6, minecraftUuid := none, username := "alex", accountType := none
          xuid := none, clientId := none, blocked := false, lastSeenAt := 0, updatedAt := 0 }]
      issued := [5, 6]
      keysUnique := by decide
      slotsUnique := by decide
      keysIssued := by decide } }

/-- A request is sent, and accepted by a crossing one. -/
def crossedRequest : List (Move Request) :=
  .start (.createFriendRequest 5 6 70) :: List.replicate 6 (.advance 0) ++
    .start (.createFriendRequest 6 5 71) :: List.replicate 6 (.advance 1)

theorem friend_requests_decided_once_crossed :
    ∃ final, run (Pool.move (handle plainState)) (.initial (.boot strangersDatabase 0))
        crossedRequest = some final ∧
      (∃ event ∈ final.history, acceptedBy event = some 70) ∧ DecidedOnce final := by
  have crossed : ((run (Pool.move (handle plainState)) (.initial (.boot strangersDatabase 0))
      crossedRequest).map fun final => decide (
        (∃ event ∈ final.history, acceptedBy event = some 70) ∧
        ∀ event ∈ final.history, DeclinesUnaccepted event)) = some true := by decide +kernel
  rcases Option.map_eq_some_iff.mp crossed with ⟨final, reached, holds⟩
  rcases of_decide_eq_true holds with ⟨accepted, unaccepted⟩
  exact ⟨final, reached, accepted,
    friend_requests_decided_once plainState strangersDatabase 0 reached unaccepted⟩

/-- The recipient accepts a request while a decline that has read it waits. -/
def acceptedBeforeDecline : List (Move Request) :=
  .start (.createFriendRequest 5 6 70) :: List.replicate 6 (.advance 0) ++
    [.start (.declineFriendRequest 6 70), .advance 1,
     .start (.acceptFriendRequest 6 70 80), .advance 2, .advance 2, .advance 2, .advance 1]

/-- An accepted request can become declined, and its friendship stays. -/
theorem friend_request_decided_twice :
    ¬∀ (state : AppState) (database : Database) (clock : Timestamp)
      (moves : List (Move Request)) (final : Pool network Request (Except AppError Reply)),
      run (Pool.move (handle state)) (.initial (.boot database clock)) moves = some final →
        DecidedOnce final := by
  intro once
  have twice : ((run (Pool.move (handle plainState)) (.initial (.boot strangersDatabase 0))
      acceptedBeforeDecline).map fun final => decide (
        (∃ event ∈ final.history, acceptedBy event = some 70) ∧
        final.shared.database.areFriends 5 6 = true ∧
        (final.shared.database.friendRequests.find 70).map (·.status) = some .declined)) =
      some true := by decide +kernel
  rcases Option.map_eq_some_iff.mp twice with ⟨final, reached, holds⟩
  rcases of_decide_eq_true holds with ⟨⟨event, member, accepted⟩, -, declined⟩
  have decided := once plainState strangersDatabase 0 acceptedBeforeDecline final reached
  obtain ⟨request, found, status⟩ := decided.befriended event member 70 accepted
  rw [found, Option.map_some, status] at declined
  cases declined

/-! ## One pending request -/

theorem Sql.pendingRequest_eq_none {fromUserId toUserId : Uuid} {database : Database} :
    Sql.pendingRequest fromUserId toUserId database = none ↔
      ∀ request ∈ database.friendRequests.rows, request.status = .pending →
        request.fromUserId = fromUserId → request.toUserId ≠ toUserId := by
  simp only [Sql.pendingRequest, Option.map_eq_none_iff, List.find?_eq_none, Bool.and_eq_true,
    decide_eq_true_eq]
  constructor
  · intro absent request member pending same other
    exact absent request member ⟨⟨same, other⟩, pending⟩
  · rintro absent request member ⟨⟨same, other⟩, pending⟩
    exact absent request member pending same other

theorem pending_eq_of_direction {database : Database} {left right : FriendRequest}
    (leftMem : left ∈ database.friendRequests.rows)
    (rightMem : right ∈ database.friendRequests.rows)
    (leftPending : left.status = .pending) (rightPending : right.status = .pending)
    (fromSame : left.fromUserId = right.fromUserId) (toSame : left.toUserId = right.toUserId) :
    left = right := by
  have leftSlot : friendRequestLayout.slot left = some (left.fromUserId, left.toUserId) :=
    if_pos leftPending
  have rightSlot : friendRequestLayout.slot right = some (left.fromUserId, left.toUserId) := by
    rw [fromSame, toSame]
    exact if_pos rightPending
  exact Table.eq_of_slot_eq leftMem rightMem leftSlot rightSlot

theorem pending_before {statement : Statement} {now : Timestamp} {database after : Database}
    (befriended : Database.Befriended statement now database after) {request : FriendRequest}
    (member : request ∈ after.friendRequests.rows) (pending : request.status = .pending) :
    request ∈ database.friendRequests.rows ∧
        statement.reviseFriendRequest now request = request ∨
      statement.insertsFriendRequest now request := by
  rcases befriended.revised request member with ⟨earlier, was, revised⟩ | ⟨-, inserted⟩
  · have same : statement.reviseFriendRequest now earlier = earlier :=
      Statement.reviseFriendRequest_pending (by rw [revised] at pending; exact pending)
    simp only [same] at revised
    subst revised
    exact .inl ⟨was, same⟩
  · exact .inr inserted

theorem inserted_alone {statement : Statement} {reply : statement.Reply} {process : Nat}
    {before after : Service} {request : FriendRequest}
    (inserted : statement.insertsFriendRequest before.clock request)
    (stranger : RequestsStranger ⟨process, before, .statement statement, .ok reply, after⟩) :
    before.database.areFriends request.fromUserId request.toUserId = false ∧
      ∀ other ∈ before.database.friendRequests.rows, other.status = .pending →
        request.fromUserId = other.toUserId → request.toUserId ≠ other.fromUserId := by
  unfold Statement.insertsFriendRequest at inserted
  split at inserted
  · rename_i fromUserId toUserId newId
    obtain ⟨notSelf, rfl⟩ := inserted
    have alone := stranger (fromUserId, toUserId) rfl
    refine ⟨alone.1, fun other member pending crossed back => ?_⟩
    exact Sql.pendingRequest_eq_none.mp alone.2 other member pending back.symm crossed.symm
  · exact inserted.elim

theorem inserted_unique {statement : Statement} {now : Timestamp} {left right : FriendRequest}
    (inserted : statement.insertsFriendRequest now left)
    (again : statement.insertsFriendRequest now right) : left = right := by
  unfold Statement.insertsFriendRequest at inserted again
  split at inserted
  · obtain ⟨_, rfl⟩ := inserted
    obtain ⟨_, rfl⟩ := again
    rfl
  · exact inserted.elim

theorem not_befriends_of_inserts {statement : Statement} {now : Timestamp}
    {request : FriendRequest} {left right : Uuid}
    (inserted : statement.insertsFriendRequest now request) :
    ¬statement.befriends left right := by
  unfold Statement.insertsFriendRequest at inserted
  split at inserted
  · exact id
  · exact inserted.elim

section Event

variable {event : Event network} {older : List (Event network)}

/-- A statement that makes two users friends settles the request that is pending
between them. -/
theorem Holds.unsettled {before : Service} {process : Nat} {statement : Statement}
    {request : FriendRequest} {now : Timestamp} (holds : Holds older before)
    (one : before.database.OnePending)
    (allowed : (transacting process older).allows (.statement statement))
    (member : request ∈ before.database.friendRequests.rows)
    (pending : request.status = .pending)
    (befriends : statement.befriends request.fromUserId request.toUserId) :
    statement.reviseFriendRequest now request ≠ request := by
  unfold Statement.befriends at befriends
  split at befriends
  · rename_i transaction id fromUserId toUserId newId
    obtain ⟨row, found, rowPending, rfl, rfl⟩ := holds.accepts allowed
    obtain ⟨rowMem, rfl⟩ := Table.find_eq_some.mp found
    obtain rfl := one.unique request member row rowMem pending rowPending befriends
    intro same
    have status := congrArg FriendRequest.status same
    simp [Statement.reviseFriendRequest, pending] at status
  · exact befriends.elim

theorem onePending_after (one : event.before.database.OnePending)
    (holds : Holds older event.before) (happened : event.Happened)
    (allowed : (transacting event.process older).allows event.operation)
    (stranger : RequestsStranger event) : event.after.database.OnePending := by
  rcases event with ⟨process, before, operation, result, after⟩
  have occurs : network.Occurs before operation result after := happened
  cases operation with
  | statement statement =>
      rcases occurs_statement occurs with ⟨-, -, rfl⟩ | ⟨reply, database, rfl, executed, rfl⟩
      · exact one
      · have befriended := Statement.execute_befriended executed
        constructor
        · intro left leftMem right rightMem leftPending rightPending together
          rcases together with ⟨fromSame, toSame⟩ | ⟨crossed, back⟩
          · exact pending_eq_of_direction leftMem rightMem leftPending rightPending fromSame toSame
          · rcases pending_before befriended leftMem leftPending with ⟨leftOld, -⟩ | leftNew
            · rcases pending_before befriended rightMem rightPending with ⟨rightOld, -⟩ | rightNew
              · exact one.unique left leftOld right rightOld leftPending rightPending
                  (.inr ⟨crossed, back⟩)
              · exact ((inserted_alone rightNew stranger).2 left leftOld leftPending back.symm
                  crossed.symm).elim
            · rcases pending_before befriended rightMem rightPending with ⟨rightOld, -⟩ | rightNew
              · exact ((inserted_alone leftNew stranger).2 right rightOld rightPending crossed
                  back).elim
              · exact inserted_unique leftNew rightNew
        · intro request member pending
          rw [Bool.eq_false_iff]
          intro friends
          rcases pending_before befriended member pending with ⟨old, unsettled⟩ | inserted
          · rcases befriended.friends _ _ friends with already | befriends
            · rw [one.strangers request old pending] at already
              cases already
            · exact (holds.unsettled one allowed old pending befriends) unsettled
          · rcases befriended.friends _ _ friends with already | befriends
            · rw [(inserted_alone inserted stranger).1] at already
              cases already
            · exact not_befriends_of_inserts inserted befriends
  | _ =>
      rw [show after.database = before.database from occurs_database (by simp) occurs]
      exact one

end Event

/-- From a database with at most one pending request between two users and none
between friends, while requests are inserted between strangers only, it stays so. -/
theorem friend_requests_one_pending (state : AppState) (database : Database)
    (clock : Timestamp) (one : database.OnePending) {moves : List (Move Request)}
    {final : Pool network Request (Except AppError Reply)}
    (reached : run (Pool.move (handle state)) (.initial (.boot database clock)) moves =
      some final) (strangers : ∀ event ∈ final.history, RequestsStranger event) :
    final.shared.database.OnePending := by
  refine @Traced.invariant network _ _ _ (fun _ service => service.database.OnePending)
    (Pool.traced_of_run reached) one ?_
  intro event older suffix happened one
  obtain ⟨holds, allowed⟩ := holds_of_run reached suffix
  exact onePending_after one holds happened allowed (strangers event (suffix.subset (by simp)))

theorem strangersDatabase_onePending : strangersDatabase.OnePending where
  unique := by
    intro left member
    cases member
  strangers := by
    intro request member
    cases member

theorem friend_requests_one_pending_crossed :
    ∃ final, run (Pool.move (handle plainState)) (.initial (.boot strangersDatabase 0))
        crossedRequest = some final ∧
      final.shared.database.areFriends 5 6 = true ∧ final.shared.database.OnePending := by
  have crossed : ((run (Pool.move (handle plainState)) (.initial (.boot strangersDatabase 0))
      crossedRequest).map fun final => decide (
        final.shared.database.areFriends 5 6 = true ∧
        ∀ event ∈ final.history, RequestsStranger event)) = some true := by decide +kernel
  rcases Option.map_eq_some_iff.mp crossed with ⟨final, reached, holds⟩
  rcases of_decide_eq_true holds with ⟨friends, strangers⟩
  exact ⟨final, reached, friends, friend_requests_one_pending plainState strangersDatabase 0
    strangersDatabase_onePending reached strangers⟩

/-- Both look for a crossing request before either has inserted one. -/
def requestedAtOnce : List (Move Request) :=
  .start (.createFriendRequest 5 6 70) :: List.replicate 3 (.advance 0) ++
    .start (.createFriendRequest 6 5 71) :: List.replicate 3 (.advance 1) ++
    [.advance 0, .advance 1]

/-- Two requests can be pending between two users. -/
theorem friend_requests_two_pending :
    ¬∀ (state : AppState) (database : Database) (clock : Timestamp), database.OnePending →
      ∀ (moves : List (Move Request)) (final : Pool network Request (Except AppError Reply)),
        run (Pool.move (handle state)) (.initial (.boot database clock)) moves = some final →
          final.shared.database.OnePending := by
  intro one
  have both : ((run (Pool.move (handle plainState)) (.initial (.boot strangersDatabase 0))
      requestedAtOnce).map fun final => decide (
        ∃ left ∈ final.shared.database.friendRequests.rows,
        ∃ right ∈ final.shared.database.friendRequests.rows,
          left.status = .pending ∧ right.status = .pending ∧
          left.fromUserId = right.toUserId ∧ left.toUserId = right.fromUserId ∧
          left.id ≠ right.id)) = some true := by decide +kernel
  rcases Option.map_eq_some_iff.mp both with ⟨final, reached, holds⟩
  rcases of_decide_eq_true holds with
    ⟨left, leftMem, right, rightMem, leftPending, rightPending, crossed, back, different⟩
  have kept := one plainState strangersDatabase 0 strangersDatabase_onePending requestedAtOnce
    final reached
  exact different (congrArg FriendRequest.id (kept.unique left leftMem right rightMem leftPending
    rightPending (.inr ⟨crossed, back⟩)))

/-! ## Friends by consent -/

def Request.Answers (request : Request) (userId : Uuid) : Prop :=
  (∃ id newId, request = .acceptFriendRequest userId id newId) ∨
    ∃ target newId, request = .createFriendRequest userId target newId

/-- Friends are asked and accepted in the name of the caller only. -/
def Request.Consents (request : Request) : Operation → Prop
  | .statement (.friend (.commitAccept _ _ _ toUserId _)) => request.Answers toUserId
  | .statement (.friend (.insertRequest fromUserId toUserId newId)) =>
      request = .createFriendRequest fromUserId toUserId newId
  | _ => True

theorem Request.consents_of_serving {request : Request} {purpose : Purpose} {operation : Operation}
    (other : purpose ≠ .friendRequest) (serving : Handler.Serving purpose operation) :
    request.Consents operation := by
  have apart : operation.purpose ≠ .friendRequest := by
    rcases serving with ordinary | same | ⟨transaction, -⟩
    · rw [ordinary]
      exact fun same => by cases same
    · rwa [same]
    · rw [transaction]
      exact fun same => by cases same
  unfold Request.Consents
  split
  · exact absurd rfl apart
  · exact absurd rfl apart
  · trivial

section Consents

variable {request : Request} {me : Uuid}

theorem broadcastPresence_consents (userId : Uuid) :
    (Presence.broadcastPresence userId).Uses request.Consents :=
  (Presence.broadcastPresence_serves userId .ordinary).mono fun _ serving =>
    Request.consents_of_serving (fun same => by cases same) serving

theorem acceptInternal_consents (requestId newId : Uuid) (answers : request.Answers me) :
    (Friends.acceptInternal me requestId newId).Uses request.Consents := by
  have last (userId : Uuid) : (Presence.broadcastPresence userId).Uses request.Consents :=
    broadcastPresence_consents userId
  have named : ∀ row : FriendRequest, row.toUserId = me → request.Answers row.toUserId := by
    rintro row rfl
    exact answers
  rw [Handler.uses_iff, Friends.acceptInternal]
  simpa [Friends.loadRequest, Handler.forall_except, Request.Consents, (last _).footprint]
    using fun _ _ row _ mine _ => named row mine

theorem createRequest_consents (target newId : Uuid)
    (same : request = .createFriendRequest me target newId) :
    (Friends.createRequest me target newId).Uses request.Consents := by
  have answers : request.Answers me := .inr ⟨target, newId, same⟩
  simp only [Handler.uses_iff, Friends.createRequest, Friends.areFriends, Handler.meets_bind,
    Handler.meets_refuse, Handler.meets_query, Handler.forall_except]
  refine ⟨fun _ => trivial, fun _ => ⟨trivial, fun _ => ⟨fun _ => trivial, fun _ =>
    ⟨trivial, fun _ => ⟨fun _ => trivial, fun _ => ⟨trivial, fun reverse => ?_,
      fun _ => trivial⟩⟩, fun _ => trivial⟩⟩, fun _ => trivial⟩⟩
  cases reverse with
  | some reverseId => exact Handler.uses_iff.mp (acceptInternal_consents reverseId newId answers)
  | none =>
      simp [Friends.insertRequest, Friends.loadRequest, Handler.forall_except, Request.Consents,
        same]

theorem decline_consents (id : Uuid) : (Friends.decline me id).Uses request.Consents := by
  simp [Handler.uses_iff, Friends.decline, Friends.loadRequest, Handler.forall_except,
    Request.Consents]

theorem Handler.Uses.map {Value Last : Type} {handler : Handler Value}
    {allowed : Operation → Prop} (uses : handler.Uses allowed) (apply : Value → Last) :
    (apply <$> handler).Uses allowed := by
  rw [Handler.uses_iff, Handler.meets_map]
  exact uses.footprint (fun _ => trivial) (fun _ => trivial)

theorem handle_consents (state : AppState) (request : Request) :
    (handle state request).Uses request.Consents := by
  by_cases other : request.purpose = .friendRequest
  · cases request with
    | createFriendRequest auth target newId => exact (createRequest_consents target newId rfl).map _
    | acceptFriendRequest auth id newId =>
        exact (acceptInternal_consents id newId (.inl ⟨id, newId, rfl⟩)).map _
    | declineFriendRequest auth id => exact (decline_consents id).map _
    | _ => cases other
  · exact (handle_serves state request).mono fun _ => Request.consents_of_serving other

end Consents

/-! ## Where requests and friendships come from -/

/-- The row was there at the start, or an event has inserted it. -/
def Asked (start : Database) (history : List (Event network)) (id fromUserId toUserId : Uuid) :
    Prop :=
  (∃ row ∈ start.friendRequests.rows, row.id = id ∧ row.fromUserId = fromUserId ∧
    row.toUserId = toUserId) ∨
  ∃ event ∈ history, event.operation =
    .statement (.friend (.insertRequest fromUserId toUserId id)) ∧
      requestedBy event = some (fromUserId, toUserId)

section Origins

variable {start : Database} {event : Event network} {older : List (Event network)}

theorem Asked.later {id fromUserId toUserId : Uuid}
    (asked : Asked start older id fromUserId toUserId) :
    Asked start (event :: older) id fromUserId toUserId := by
  rcases asked with old | ⟨asking, member, rest⟩
  · exact .inl old
  · exact .inr ⟨asking, List.mem_cons_of_mem _ member, rest⟩

theorem Statement.reviseFriendRequest_users {now : Timestamp} {row : FriendRequest}
    {statement : Statement} :
    (statement.reviseFriendRequest now row).fromUserId = row.fromUserId ∧
      (statement.reviseFriendRequest now row).toUserId = row.toUserId := by
  unfold Statement.reviseFriendRequest
  split
  · split <;> exact ⟨rfl, rfl⟩
  · split <;> exact ⟨rfl, rfl⟩
  · exact ⟨rfl, rfl⟩

theorem asked_after (happened : event.Happened)
    (asked : ∀ row ∈ event.before.database.friendRequests.rows,
      Asked start older row.id row.fromUserId row.toUserId) :
    ∀ row ∈ event.after.database.friendRequests.rows,
      Asked start (event :: older) row.id row.fromUserId row.toUserId := by
  obtain ⟨process, before, operation, result, after⟩ := event
  have occurs : network.Occurs before operation result after := happened
  intro row member
  cases operation with
  | statement statement =>
      rcases occurs_statement occurs with ⟨-, -, rfl⟩ | ⟨reply, database, rfl, executed, rfl⟩
      · exact (asked row member).later
      · rcases (Statement.execute_befriended executed).revised row member with
          ⟨earlier, present, rfl⟩ | ⟨-, inserted⟩
        · have users := @Statement.reviseFriendRequest_users before.clock earlier statement
          rw [Statement.reviseFriendRequest_id, users.1, users.2]
          exact (asked earlier present).later
        · unfold Statement.insertsFriendRequest at inserted
          split at inserted
          · obtain ⟨-, rfl⟩ := inserted
            exact .inr ⟨_, List.mem_cons_self, rfl, rfl⟩
          · cases inserted
  | _ =>
      rw [show after.database = before.database from occurs_database (by simp) occurs] at member
      exact (asked row member).later

theorem accepts_of_befriended (holds : Holds older event.before) (happened : event.Happened)
    (allowed : (transacting event.process older).allows event.operation) {left right : Uuid}
    (friends : event.after.database.areFriends left right = true) :
    event.before.database.areFriends left right = true ∨
    ∃ row ∈ event.before.database.friendRequests.rows, row.status = .pending ∧
      acceptedBy event = some row.id ∧ (∃ transaction newId, event.operation =
        .statement (.friend (.commitAccept transaction row.id row.fromUserId row.toUserId newId))) ∧
      (left = row.fromUserId ∧ right = row.toUserId ∨
        left = row.toUserId ∧ right = row.fromUserId) := by
  obtain ⟨process, before, operation, result, after⟩ := event
  have occurs : network.Occurs before operation result after := happened
  cases operation with
  | statement statement =>
      rcases occurs_statement occurs with ⟨-, -, rfl⟩ | ⟨reply, database, rfl, executed, rfl⟩
      · exact .inl friends
      · rcases (Statement.execute_befriended executed).friends left right friends with
          already | befriends
        · exact .inl already
        · unfold Statement.befriends at befriends
          split at befriends
          · rename_i transaction id fromUserId toUserId newId
            obtain ⟨row, found, pending, rfl, rfl⟩ := holds.accepts allowed
            obtain ⟨member, rfl⟩ := Table.find_eq_some.mp found
            exact .inr ⟨row, member, pending, rfl, ⟨transaction, newId, rfl⟩, befriends⟩
          · cases befriends
  | _ =>
      rw [show after.database = before.database from occurs_database (by simp) occurs] at friends
      exact .inl friends

end Origins

/-- The request of `asker` was pending when the event accepted it in the name of `answerer`, and
was there at the start or had been made in the name of `asker`. -/
structure Agreed (start : Database) (final : Pool network Request (Except AppError Reply))
    (asker answerer : Uuid) (event : Event network) (older : List (Event network)) : Prop where
  happened : event :: older <:+ final.history
  accepted : ∃ row ∈ event.before.database.friendRequests.rows, acceptedBy event = some row.id ∧
    row.status = .pending ∧ row.fromUserId = asker ∧ row.toUserId = answerer ∧
    Asked start older row.id asker answerer
  answered : ∃ request, final.owner event.process = some request ∧ request.Answers answerer
  asked : ∀ asking ∈ older, requestedBy asking = some (asker, answerer) →
    ∃ newId, final.owner asking.process = some (.createFriendRequest asker answerer newId)

/-- Users who become friends have both agreed: one asked, and after that the other accepted. -/
theorem friends_consented (state : AppState) (database : Database) (clock : Timestamp)
    {moves : List (Move Request)} {final : Pool network Request (Except AppError Reply)}
    (reached : run (Pool.move (handle state)) (.initial (.boot database clock)) moves = some final)
    {left right : Uuid} (strangers : database.areFriends left right = false)
    (friends : final.shared.database.areFriends left right = true) :
    ∃ asker answerer event older, Agreed database final asker answerer event older ∧
      (left = asker ∧ right = answerer ∨ left = answerer ∧ right = asker) := by
  have traced := Pool.traced_of_run reached
  have taken := Pool.taken_of_run (handle_consents state) reached
  have came := @Traced.invariant network _ _ _ (fun past service =>
    (∀ row ∈ service.database.friendRequests.rows,
      Asked database past row.id row.fromUserId row.toUserId) ∧
    (service.database.areFriends left right = true →
      ∃ asker answerer event older, Agreed database final asker answerer event older ∧
        (left = asker ∧ right = answerer ∨ left = answerer ∧ right = asker)))
    traced ⟨fun row member => .inl ⟨row, member, rfl, rfl, rfl⟩, fun already => ?_⟩ ?_
  · exact came.2 friends
  · exact absurd (strangers.symm.trans already) Bool.false_ne_true
  · rintro event older suffix happened ⟨asked, consented⟩
    obtain ⟨holds, allowed⟩ := holds_of_run reached suffix
    refine ⟨asked_after happened asked, fun befriended => ?_⟩
    rcases accepts_of_befriended holds happened allowed befriended with
      already | ⟨row, member, pending, accepts, ⟨transaction, newId, operation⟩, users⟩
    · exact consented already
    · obtain ⟨request, owned, consents⟩ := taken event (suffix.subset List.mem_cons_self)
      rw [operation] at consents
      refine ⟨row.fromUserId, row.toUserId, event, older, ?_, users⟩
      refine ⟨suffix, ⟨row, member, accepts, pending, rfl, rfl, asked row member⟩,
        ⟨request, owned, consents⟩, fun asking among requested => ?_⟩
      obtain ⟨request, owned, consents⟩ := taken asking
        (suffix.subset (List.mem_cons_of_mem _ among))
      unfold requestedBy at requested
      split at requested
      · rename_i fromUserId toUserId newId reply inserts result
        rw [inserts] at consents
        cases requested
        exact ⟨newId, consents ▸ owned⟩
      · cases requested

theorem friends_consented_crossed :
    ∃ final asker answerer event older,
      run (Pool.move (handle plainState)) (.initial (.boot strangersDatabase 0)) crossedRequest =
        some final ∧ Agreed strangersDatabase final asker answerer event older ∧
      (6 = asker ∧ 5 = answerer ∨ 6 = answerer ∧ 5 = asker) := by
  have crossed : ((run (Pool.move (handle plainState)) (.initial (.boot strangersDatabase 0))
      crossedRequest).map fun final => final.shared.database.areFriends 6 5) = some true := by
    decide +kernel
  obtain ⟨final, reached, friends⟩ := Option.map_eq_some_iff.mp crossed
  obtain ⟨asker, answerer, event, older, consented, users⟩ :=
    friends_consented plainState strangersDatabase 0 reached rfl friends
  exact ⟨final, asker, answerer, event, older, reached, consented, users⟩

end Loontail
